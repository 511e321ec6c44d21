import RAMCloud.Machine

/-! # The hash table, as the benchmark sees it

    HashTable.h, HashTable.cc and KeyUtil.h are not among the sources; the
    spec treats the table as an opaque keyed store, `replace(key, ref)` and
    `lookup(key) -> ref?`, with internal chaining. The benchmark touches the
    table in exactly two ways, and this file models both:

    - as a keyed store: a `KeyComparer` decides whether a stored reference
      belongs to a key, `replace` overwrites the stored reference that
      matches (or adds one), and `lookup` returns the one that matches;
    - as a bucket array: the chaining histogram follows, from each bucket,
      the chain pointer held in the last entry of each cache line.

    The second view is read, never written, by the benchmark, and the spec
    says nothing of how `replace` lays references out in cache lines; so a
    bucket array is an input to the histogram code (every finite chain
    layout), not something computed from the store.
-/

namespace RAMCloud

/-! ## Section 1: Keys and the keyed store -/

/-- Modelled from the spec: `Key`, declared in KeyUtil.h, which is not among
    the sources. The benchmark builds a key as `Key(tableId, stringKey,
    keyLength)` and compares two with `==`: equal when the table ids and the
    `keyLength` bytes agree. -/
structure Key where
  tableId : UInt64
  stringKey : List UInt8
  deriving DecidableEq, Repr

/-- `HashTable::KeyComparer`: `doesMatch(key, candidate)` tells whether the
    object a stored reference points to has the given key. -/
abbrev KeyComparer : Type := Key → UInt64 → Bool

/-- Modelled from the spec: `HashTable` as the opaque keyed store the spec
    describes, reduced to the references it holds, oldest first. -/
structure HashTable where
  references : List UInt64
  deriving DecidableEq, Repr

namespace HashTable

/-- `HashTable ht(nlines, keyComparer)`: a table holding nothing. -/
def empty : HashTable := ⟨[]⟩

/-- Overwrite the first element satisfying `p` with `r`, or append `r` when
    there is none. -/
def overwriteFirst (p : UInt64 → Bool) (r : UInt64) : List UInt64 → List UInt64
  | [] => [r]
  | x :: xs => if p x then r :: xs else x :: overwriteFirst p r xs

/-- Modelled from the spec: `replace(key, reference)` overwrites the stored
    reference that matches `key`, and otherwise adds `reference`. -/
def replace (keyComparer : KeyComparer) (ht : HashTable) (key : Key)
    (reference : UInt64) : HashTable :=
  ⟨overwriteFirst (keyComparer key) reference ht.references⟩

/-- Modelled from the spec: `lookup(key, outReference)` finds the stored
    reference that matches `key`. -/
def lookup (keyComparer : KeyComparer) (ht : HashTable) (key : Key) : Option UInt64 :=
  ht.references.find? (keyComparer key)

/-! ### `overwriteFirst` -/

section overwrite
variable {p : UInt64 → Bool} {r : UInt64}

theorem overwriteFirst_of_forall_false {l : List UInt64} (h : ∀ x ∈ l, p x = false) :
    overwriteFirst p r l = l ++ [r] := by
  induction l with
  | nil => rfl
  | cons x xs ih =>
    simp only [List.mem_cons, forall_eq_or_imp] at h
    simp [overwriteFirst, h.1, ih h.2]

theorem overwriteFirst_of_find? {l : List UInt64} (h : l.find? p = some r) :
    overwriteFirst p r l = l := by
  induction l with
  | nil => simp at h
  | cons x xs ih =>
    by_cases hx : p x
    · simp_all [overwriteFirst]
    · simp only [List.find?_cons, hx] at h
      simp [overwriteFirst, hx, ih h]

theorem find?_overwriteFirst (hr : p r = true) :
    ∀ l : List UInt64, (overwriteFirst p r l).find? p = some r
  | [] => by simp [overwriteFirst, hr]
  | x :: xs => by
    by_cases hx : p x
    · simp [overwriteFirst, hx, hr]
    · simp [overwriteFirst, hx, find?_overwriteFirst hr xs]

end overwrite

/-! ### The keyed-store laws -/

section laws
variable {keyComparer : KeyComparer} {ht : HashTable} {key : Key} {reference : UInt64}

/-- A reference for a key that matches nothing stored is added at the end. -/
theorem replace_of_no_match (h : ∀ x ∈ ht.references, keyComparer key x = false) :
    (ht.replace keyComparer key reference).references = ht.references ++ [reference] :=
  overwriteFirst_of_forall_false h

/-- Replacing a key's reference by the one already stored changes nothing. -/
theorem replace_of_lookup (h : ht.lookup keyComparer key = some reference) :
    ht.replace keyComparer key reference = ht := by
  cases ht
  exact congrArg HashTable.mk (overwriteFirst_of_find? h)

/-- After `replace(key, reference)`, `lookup(key)` finds `reference`, provided
    the comparer says it belongs to `key`. -/
theorem lookup_replace (h : keyComparer key reference = true) :
    (ht.replace keyComparer key reference).lookup keyComparer key = some reference :=
  find?_overwriteFirst h _

end laws

end HashTable

/-! ## Section 2: Bucket chains -/

/-- Modelled from the spec: a cache line of the bucket array, as the chaining
    histogram reads it. Of its `entriesPerCacheLine()` entries only the last
    one is read, for its chain pointer: either a further cache line of the
    same bucket, or none (`getChainPointer()` returns NULL). -/
inductive CacheLine where
  | unchained
  | chained (next : CacheLine)
  deriving DecidableEq, Repr

/-- The number of cache lines in the chain starting at a cache line. -/
def CacheLine.length : CacheLine → Nat
  | unchained => 1
  | chained next => next.length + 1

theorem CacheLine.one_le_length : ∀ cl : CacheLine, 1 ≤ cl.length
  | unchained => le_refl 1
  | chained next => Nat.le_add_left 1 next.length

/-- `HashTable::bytesPerCacheLine()` and `HashTable::entriesPerCacheLine()`,
    constants of HashTable.h, which is not among the sources. `main` divides
    by the first, which as the size of a cache line is never zero. -/
structure CacheGeometry where
  bytesPerCacheLine : UInt64
  entriesPerCacheLine : UInt64
  bytesPerCacheLine_ne_zero : bytesPerCacheLine ≠ 0

/-- A cache line of 64 bytes and eight entries, the layout the concrete
    statements use. -/
def cacheLine64 : CacheGeometry := ⟨64, 8, by decide⟩

end RAMCloud
