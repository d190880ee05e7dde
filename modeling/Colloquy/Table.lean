/-!
# Tables

Association lists in the order in which their keys were first put.
-/

namespace Colloquy

/-- Values under keys. -/
abbrev Table (Key Entry : Type) := List (Key × Entry)

namespace Table

variable {Key Entry : Type} [DecidableEq Key]

/-- The value under a key. -/
def get? (table : Table Key Entry) (key : Key) : Option Entry := table.lookup key

/-- There is a value under a key. -/
def has (table : Table Key Entry) (key : Key) : Bool := (table.get? key).isSome

/-- The table with another value under a key; a new key goes to the end. -/
def put (key : Key) (entry : Entry) : Table Key Entry → Table Key Entry
  | [] => [(key, entry)]
  | (other, old) :: rest =>
    if other = key then (key, entry) :: rest else (other, old) :: put key entry rest

/-- The keys in order. -/
def keys (table : Table Key Entry) : List Key := table.map Prod.fst

theorem get?_cons (key other : Key) (entry : Entry) (table : Table Key Entry) :
    get? ((other, entry) :: table) key = if other = key then some entry else table.get? key := by
  by_cases same : other = key
  · simp [get?, same]
  · have : (key == other) = false := by simpa using Ne.symm same
    simp [get?, List.lookup_cons, same, this]

@[simp]
theorem get?_put_self (table : Table Key Entry) (key : Key) (entry : Entry) :
    get? (put key entry table) key = some entry := by
  induction table with
  | nil => simp [put, get?_cons]
  | cons pair rest ih =>
    obtain ⟨first, old⟩ := pair
    unfold put
    split <;> simp_all [get?_cons]

theorem get?_put_of_ne {key other : Key} (different : other ≠ key) (table : Table Key Entry)
    (entry : Entry) : get? (put key entry table) other = table.get? other := by
  induction table with
  | nil => simp [put, get?_cons, Ne.symm different]
  | cons pair rest ih =>
    obtain ⟨first, old⟩ := pair
    unfold put
    split
    · rename_i same
      simp [get?_cons, same, Ne.symm different]
    · simp [get?_cons, ih]

theorem has_iff_mem_keys {table : Table Key Entry} {key : Key} :
    table.has key ↔ key ∈ table.keys := by
  induction table with
  | nil => simp [has, get?, keys]
  | cons pair rest ih =>
    obtain ⟨first, old⟩ := pair
    by_cases same : first = key
    · simp [has, get?_cons, keys, same]
    · simpa [has, get?_cons, keys, same, Ne.symm same] using ih

end Table

end Colloquy
