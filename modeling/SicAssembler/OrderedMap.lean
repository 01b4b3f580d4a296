/-!
Finite maps that remember the order of their keys. A key stands where it was first inserted, and a
later insertion of the same key replaces its value in place (`keys_insert`, `get?_insert`). Opcode
tables, symbol tables and the files of a disk are such maps.
-/

namespace SicAssembler

/-- A finite map with its entries in the order of first insertion, no key twice. -/
@[ext]
structure OrderedMap (κ ν : Type) where
  entries : List (κ × ν)
  nodup : (entries.map Prod.fst).Nodup

namespace OrderedMap

variable {κ ν : Type} [DecidableEq κ]

def empty : OrderedMap κ ν := ⟨[], List.nodup_nil⟩

instance : Inhabited (OrderedMap κ ν) := ⟨empty⟩

def keys (m : OrderedMap κ ν) : List κ := m.entries.map Prod.fst

def size (m : OrderedMap κ ν) : Nat := m.entries.length

def get? (m : OrderedMap κ ν) (key : κ) : Option ν := m.entries.lookup key

def contains (m : OrderedMap κ ν) (key : κ) : Bool := (m.get? key).isSome

/-- The entries with the value of a key replaced in place, or with a new entry at the end. -/
def putEntry (key : κ) (value : ν) : List (κ × ν) → List (κ × ν)
  | [] => [(key, value)]
  | entry :: rest =>
    if entry.1 = key then (key, value) :: rest else entry :: putEntry key value rest

theorem keys_putEntry (key : κ) (value : ν) (entries : List (κ × ν)) :
    (putEntry key value entries).map Prod.fst =
      if key ∈ entries.map Prod.fst then entries.map Prod.fst
      else entries.map Prod.fst ++ [key] := by
  induction entries with
  | nil => simp [putEntry]
  | cons entry rest ih =>
    rw [putEntry]
    split
    · rename_i same
      simp [same]
    · rename_i other
      have apart : key ≠ entry.1 := fun h => other h.symm
      by_cases member : key ∈ rest.map Prod.fst
      · rw [List.map_cons, ih, if_pos member, if_pos (by simp [member])]
        simp
      · rw [List.map_cons, ih, if_neg member, if_neg (by simp [apart]; simpa using member)]
        simp

theorem lookup_putEntry (key other : κ) (value : ν) (entries : List (κ × ν)) :
    (putEntry key value entries).lookup other =
      if other = key then some value else entries.lookup other := by
  induction entries with
  | nil =>
    by_cases same : other = key
    · simp [putEntry, same]
    · simp [putEntry, List.lookup_cons, beq_false_of_ne same, same]
  | cons entry rest ih =>
    obtain ⟨k, v⟩ := entry
    by_cases found : k = key
    · subst found
      by_cases same : other = k
      · simp [putEntry, same]
      · simp [putEntry, List.lookup_cons, beq_false_of_ne same, same]
    · rw [putEntry, if_neg found, List.lookup_cons, List.lookup_cons, ih]
      by_cases same : other = key
      · subst same
        simp [beq_false_of_ne (Ne.symm found)]
      · simp [same]

/-- Gives a key a value: a known key keeps its place, a new one comes last. -/
def insert (m : OrderedMap κ ν) (key : κ) (value : ν) : OrderedMap κ ν where
  entries := putEntry key value m.entries
  nodup := by
    rw [keys_putEntry]
    split
    · exact m.nodup
    · rename_i absent
      exact List.nodup_append.mpr ⟨m.nodup, by simp, fun a member b single => by
        rw [List.mem_singleton] at single
        rintro rfl
        exact absent (single ▸ member)⟩

theorem keys_insert (m : OrderedMap κ ν) (key : κ) (value : ν) :
    (m.insert key value).keys = if key ∈ m.keys then m.keys else m.keys ++ [key] :=
  keys_putEntry key value m.entries

theorem get?_insert (m : OrderedMap κ ν) (key other : κ) (value : ν) :
    (m.insert key value).get? other = if other = key then some value else m.get? other :=
  lookup_putEntry key other value m.entries

def insertAll (m : OrderedMap κ ν) (entries : List (κ × ν)) : OrderedMap κ ν :=
  entries.foldl (fun map entry => map.insert entry.1 entry.2) m

/-- The map that holds the given entries, the last value of each key at the place of its first. -/
def ofList (entries : List (κ × ν)) : OrderedMap κ ν :=
  empty.insertAll entries

theorem insertAll_append (m : OrderedMap κ ν) (a b : List (κ × ν)) :
    m.insertAll (a ++ b) = (m.insertAll a).insertAll b :=
  List.foldl_append

end OrderedMap

end SicAssembler
