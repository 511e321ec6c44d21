import RAMCloud.HashTable

/-! # Test objects, the heap and the key comparer

    `hashTableBenchmark` keys its table by 64-bit integers. For each key `i`
    it allocates a `TestObject(i)` and stores a pointer to it, squished into
    a `uint64_t`, as the reference; `TestObjectKeyComparer` follows such a
    reference back to its object and rebuilds the object's key to compare.

    The heap is modelled as the test objects alive at each address, and `new`
    as an `Allocator` that may fail but never hands out an address where a
    test object already lives. Whether a key matches a reference then rests
    on one fact of the machine layer: distinct integers have distinct bytes
    (`uint64Bytes_inj`).
-/

namespace RAMCloud

/-! ## Section 1: Test objects on the heap -/

/-- `TestObject`: a cache-line aligned object holding the key it was built
    with. -/
structure TestObject where
  key : UInt64
  deriving DecidableEq, Repr

/-- The test objects alive on the heap, by address. -/
def Heap : Type := UInt64 → Option TestObject

namespace Heap

/-- The heap with `object` placed at `address`. -/
def insert (heap : Heap) (address : UInt64) (object : TestObject) : Heap :=
  fun a => if a = address then some object else heap a

@[simp] theorem insert_self (heap : Heap) (address : UInt64) (object : TestObject) :
    heap.insert address object address = some object := if_pos rfl

@[simp] theorem insert_ne (heap : Heap) {address a : UInt64} (object : TestObject)
    (h : a ≠ address) : heap.insert address object a = heap a := if_neg h

end Heap

/-- The allocator behind `new TestObject(key)`: it either fails or returns an
    address where no test object lives. -/
structure Allocator where
  allocate : Heap → Option UInt64
  allocate_fresh : ∀ heap address, allocate heap = some address → heap address = none

/-- `new TestObject(key)`: the new object's address and the heap holding it. -/
def newTestObject (allocator : Allocator) (heap : Heap) (key : UInt64) :
    Except Fault (UInt64 × Heap) :=
  match allocator.allocate heap with
  | some address => .ok (address, heap.insert address ⟨key⟩)
  | none => .error .outOfMemory

/-- What `new` can do: fail for lack of memory, or place the object at an
    address that was free. -/
theorem newTestObject_cases (allocator : Allocator) (heap : Heap) (key : UInt64) :
    newTestObject allocator heap key = .error .outOfMemory ∨
      ∃ address, heap address = none ∧
        newTestObject allocator heap key = .ok (address, heap.insert address ⟨key⟩) := by
  unfold newTestObject
  cases h : allocator.allocate heap with
  | none => exact .inl rfl
  | some address => exact .inr ⟨address, allocator.allocate_fresh heap address h, rfl⟩

/-! ## Section 2: Keys and the comparer -/

/-- `Key(0, &i, sizeof(i))`: table 0, keyed by the eight bytes of `i`. -/
def integerKey (i : UInt64) : Key := ⟨0, uint64Bytes i⟩

theorem integerKey_inj {a b : UInt64} : integerKey a = integerKey b ↔ a = b := by
  simp [integerKey, uint64Bytes_inj]

/-- `TestObjectKeyComparer::doesMatch(key, candidate)`: the key of the test
    object at `candidate` is rebuilt as `Key(0, &candidateObject->key, 8)` and
    compared with `key`. A candidate where no test object lives matches
    nothing; no run of the benchmark passes one (every reference it stores
    points to a live object). -/
def TestObjectKeyComparer.doesMatch (heap : Heap) (key : Key) (candidate : UInt64) : Bool :=
  match heap candidate with
  | some candidateObject => key == ⟨0, uint64Bytes candidateObject.key⟩
  | none => false

/-- An integer key matches a live test object exactly when the object was
    built with that integer. -/
theorem doesMatch_integerKey {heap : Heap} {candidate : UInt64} {object : TestObject}
    (h : heap candidate = some object) (i : UInt64) :
    TestObjectKeyComparer.doesMatch heap (integerKey i) candidate = decide (i = object.key) := by
  rw [TestObjectKeyComparer.doesMatch, h, Bool.eq_iff_iff, beq_iff_eq, decide_eq_true_iff]
  exact integerKey_inj

end RAMCloud
