import Mathlib.Logic.Function.Basic
import RAMCloud.Benchmark.TestObject

/-! # The populate, replace and lookup loops

    The first half of `hashTableBenchmark(nkeys, nlines)` runs three loops
    over `i = 0, ..., nkeys - 1`, all keyed by `Key(0, &i, sizeof(i))`:

    - populate: `values[i] = new TestObject(i)`, `ht.replace(key, values[i])`,
      then `assert(ht.lookup(key, outReference))` and
      `assert(outReference == reference)`;
    - replace: `ht.replace(key, values[i])` again, for the measurement;
    - lookup: `ht.lookup(key, reference)`, then `assert(success)` and
      `assert(reinterpret_cast<TestObject*>(reference)->key == i)`.

    Each loop is a function of the number of iterations run, the last
    iteration applied after the others, so that what one iteration does
    (a step lemma) lifts to the whole loop by induction (a run lemma).

    The invariant of the populate loop, `Populated n`, says that after `n`
    iterations `values[j]` points to a live `TestObject(j)` for each `j < n`
    and the table holds exactly `values[0], ..., values[n - 1]`. From it the
    key of `i` matches `values[j]` exactly when `i = j`, so the table maps the
    key of `i` to `values[i]` for exactly the `i < n`
    (`lookup_of_populated`); the replace loop then changes nothing and every
    lookup and every assert succeeds.
-/

namespace RAMCloud

/-! ## Section 1: The loops -/

/-- What the measurement loops read and write. -/
structure BenchmarkState where
  /-- The test objects allocated so far. -/
  heap : Heap
  /-- The table `ht`. -/
  ht : HashTable
  /-- The array `values`: `values[i]` is a `TestObject*` squished into a
      `uint64_t`, the reference stored for key `i`. -/
  values : Nat → UInt64

/-- The comparer the table calls: `TestObjectKeyComparer` over the heap of
    the moment. -/
def BenchmarkState.keyComparer (s : BenchmarkState) : KeyComparer :=
  TestObjectKeyComparer.doesMatch s.heap

/-- Iteration `i` of the populate loop. -/
def populateStep (allocator : Allocator) (i : Nat) (s : BenchmarkState) :
    Except Fault BenchmarkState := do
  let key := integerKey (UInt64.ofNat i)
  let (reference, heap) ← newTestObject allocator s.heap (UInt64.ofNat i)
  let s' : BenchmarkState :=
    ⟨heap, s.ht.replace (TestObjectKeyComparer.doesMatch heap) key reference,
      Function.update s.values i reference⟩
  match s'.ht.lookup s'.keyComparer key with
  | none => .error (.assertionFailed "ht.lookup(key, outReference)")
  | some outReference =>
    if outReference = reference then .ok s'
    else .error (.assertionFailed "outReference == reference")

/-- The first `n` iterations of the populate loop. -/
def populate (allocator : Allocator) : Nat → BenchmarkState → Except Fault BenchmarkState
  | 0, s => .ok s
  | n + 1, s => populate allocator n s >>= populateStep allocator n

/-- Iteration `i` of the replace loop. -/
def replaceStep (i : Nat) (s : BenchmarkState) : BenchmarkState :=
  { s with ht := s.ht.replace s.keyComparer (integerKey (UInt64.ofNat i)) (s.values i) }

/-- The first `n` iterations of the replace loop. -/
def replaceLoop : Nat → BenchmarkState → BenchmarkState
  | 0, s => s
  | n + 1, s => replaceStep n (replaceLoop n s)

/-- Iteration `i` of the lookup loop. -/
def lookupStep (s : BenchmarkState) (i : Nat) : Except Fault Unit :=
  match s.ht.lookup s.keyComparer (integerKey (UInt64.ofNat i)) with
  | none => .error (.assertionFailed "success")
  | some reference =>
    match s.heap reference with
    | none => .error .invalidPointer
    | some object =>
      if object.key = UInt64.ofNat i then .ok ()
      else .error (.assertionFailed "reinterpret_cast<TestObject*>(reference)->key == i")

/-- The first `n` iterations of the lookup loop. -/
def lookupLoop (s : BenchmarkState) : Nat → Except Fault Unit
  | 0 => .ok ()
  | n + 1 => lookupLoop s n >>= fun _ => lookupStep s n

/-! ## Section 2: The populate invariant -/

/-- The state after `n` iterations of the populate loop. -/
structure Populated (n : Nat) (s : BenchmarkState) : Prop where
  /-- `values[j]` points to a live `TestObject(j)`. -/
  objects : ∀ j < n, s.heap (s.values j) = some ⟨UInt64.ofNat j⟩
  /-- The table holds `values[0], ..., values[n - 1]`, in that order. -/
  references : s.ht.references = (List.range n).map s.values

/-- The first element of `values[0], ..., values[n - 1]` that `p` picks out,
    when `p` picks out `values[j]` exactly for `j = k`. -/
theorem find?_map_range {p : UInt64 → Bool} {values : Nat → UInt64} {k : Nat} :
    ∀ {n : Nat}, (∀ j < n, p (values j) = decide (j = k)) →
      ((List.range n).map values).find? p = if k < n then some (values k) else none
  | 0, _ => by simp
  | n + 1, h => by
    rw [List.range_succ, List.map_append, List.find?_append,
      find?_map_range fun j hj => h j (by omega)]
    by_cases hk : k < n
    · simp [hk, show k < n + 1 by omega]
    · by_cases hkn : k = n
      · subst hkn
        simp [h k (by omega)]
      · simp [hk, h n (by omega), Ne.symm hkn, show ¬k < n + 1 by omega]

section populated
variable {n : Nat} {s : BenchmarkState}

/-- The key of `i` matches `values[j]` exactly when `i = j`. -/
theorem doesMatch_values (hp : Populated n s) (hn : n ≤ 2 ^ 64) (i : UInt64) {j : Nat}
    (hj : j < n) : s.keyComparer (integerKey i) (s.values j) = decide (j = i.toNat) := by
  rw [BenchmarkState.keyComparer, doesMatch_integerKey (hp.objects j hj)]
  have := toNat_lt64 i
  exact decide_eq_decide.mpr ⟨fun h => by rw [h, toNat_ofNat64, Nat.mod_eq_of_lt (by omega)],
    fun h => by subst h; simp⟩

/-- The table maps the key of `i` to `values[i]` for exactly the `i < n`. -/
theorem lookup_of_populated (hp : Populated n s) (hn : n ≤ 2 ^ 64) (i : UInt64) :
    s.ht.lookup s.keyComparer (integerKey i) =
      if i.toNat < n then some (s.values i.toNat) else none := by
  rw [HashTable.lookup, hp.references]
  exact find?_map_range fun j hj => doesMatch_values hp hn i hj

/-- An iteration that places `TestObject(i)` at a free address keeps the
    invariant. -/
theorem populated_insert (hp : Populated n s) (hn : n < 2 ^ 64) {address : UInt64}
    (hfree : s.heap address = none) :
    Populated (n + 1)
      ⟨s.heap.insert address ⟨UInt64.ofNat n⟩,
        s.ht.replace (TestObjectKeyComparer.doesMatch (s.heap.insert address ⟨UInt64.ofNat n⟩))
          (integerKey (UInt64.ofNat n)) address,
        Function.update s.values n address⟩ := by
  have hold : ∀ j < n, s.heap.insert address ⟨UInt64.ofNat n⟩ (s.values j) =
      some ⟨UInt64.ofNat j⟩ := fun j hj => by
    have hne : s.values j ≠ address := fun h => by simp [← h, hp.objects j hj] at hfree
    rw [Heap.insert_ne _ _ hne, hp.objects j hj]
  have hvalues : (List.range n).map (Function.update s.values n address) =
      (List.range n).map s.values :=
    List.map_congr_left fun j hj => Function.update_noteq (Nat.ne_of_lt (List.mem_range.mp hj)) _ _
  refine ⟨fun j hj => ?_, ?_⟩
  · rcases Nat.lt_succ_iff_lt_or_eq.mp hj with hj | rfl
    · dsimp only
      rw [Function.update_noteq (Nat.ne_of_lt hj)]
      exact hold j hj
    · simp
  · rw [HashTable.replace_of_no_match, hp.references, List.range_succ, List.map_append, hvalues]
    · simp
    · rw [hp.references]
      simp only [List.forall_mem_map, List.mem_range]
      intro j hj
      rw [doesMatch_integerKey (hold j hj), decide_eq_false_iff_not]
      exact fun h => by have := ofNat_inj64 hn (by omega) h; omega

/-- What one populate iteration can do from a populated state: run out of
    memory, or pass both asserts and extend the invariant. -/
theorem populateStep_cases (allocator : Allocator) (hp : Populated n s) (hn : n < 2 ^ 64) :
    populateStep allocator n s = .error .outOfMemory ∨
      ∃ s', populateStep allocator n s = .ok s' ∧ Populated (n + 1) s' := by
  rcases newTestObject_cases allocator s.heap (UInt64.ofNat n) with h | ⟨address, hfree, h⟩
  · left
    simp [populateStep, h]
  · right
    -- the new object has key `n`, so the store's own law finds it again
    have hmatch : TestObjectKeyComparer.doesMatch (s.heap.insert address ⟨UInt64.ofNat n⟩)
        (integerKey (UInt64.ofNat n)) address = true := by
      rw [doesMatch_integerKey (s.heap.insert_self address _)]
      exact decide_eq_true rfl
    have hl := @HashTable.lookup_replace _ s.ht _ _ hmatch
    exact ⟨_, by simp [populateStep, h, BenchmarkState.keyComparer, hl],
      populated_insert hp hn hfree⟩

/-- Iteration `i < n` of the replace loop stores again the reference that is
    already stored for key `i`. -/
theorem replaceStep_of_populated (hp : Populated n s) (hn : n ≤ 2 ^ 64) {i : Nat}
    (hi : i < n) : replaceStep i s = s := by
  have hl := lookup_of_populated hp hn (UInt64.ofNat i)
  rw [toNat_ofNat_of_lt64 (by omega), if_pos hi] at hl
  simp [replaceStep, HashTable.replace_of_lookup hl]

/-- Iteration `i < n` of the lookup loop finds `values[i]` and passes both
    asserts. -/
theorem lookupStep_of_populated (hp : Populated n s) (hn : n ≤ 2 ^ 64) {i : Nat}
    (hi : i < n) : lookupStep s i = .ok () := by
  have hl := lookup_of_populated hp hn (UInt64.ofNat i)
  rw [toNat_ofNat_of_lt64 (by omega), if_pos hi] at hl
  simp [lookupStep, hl, hp.objects i hi]

end populated

/-! ## Section 3: Whole loops -/

theorem populated_zero {s : BenchmarkState} (h : s.ht = HashTable.empty) : Populated 0 s :=
  ⟨fun _ hj => absurd hj (Nat.not_lt_zero _), by simp [h, HashTable.empty]⟩

/-- The populate loop, from a state with an empty table: it runs out of
    memory, or it passes all its asserts and ends populated. -/
theorem populate_cases (allocator : Allocator) (s₀ : BenchmarkState)
    (h₀ : s₀.ht = HashTable.empty) : ∀ n ≤ 2 ^ 64,
      populate allocator n s₀ = .error .outOfMemory ∨
        ∃ s, populate allocator n s₀ = .ok s ∧ Populated n s
  | 0, _ => .inr ⟨s₀, rfl, populated_zero h₀⟩
  | n + 1, hn => by
    rcases populate_cases allocator s₀ h₀ n (by omega) with h | ⟨s, h, hp⟩
    · simp [populate, h]
    · simpa [populate, h] using populateStep_cases allocator hp (by omega)

section populated
variable {n : Nat} {s : BenchmarkState}

/-- The replace loop over keys already stored leaves the table as it was. -/
theorem replaceLoop_of_populated (hp : Populated n s) (hn : n ≤ 2 ^ 64) :
    ∀ m ≤ n, replaceLoop m s = s
  | 0, _ => rfl
  | m + 1, hm => by
    rw [replaceLoop, replaceLoop_of_populated hp hn m (by omega),
      replaceStep_of_populated hp hn (by omega)]

/-- The lookup loop over keys already stored passes all its asserts. -/
theorem lookupLoop_of_populated (hp : Populated n s) (hn : n ≤ 2 ^ 64) :
    ∀ m ≤ n, lookupLoop s m = .ok ()
  | 0, _ => rfl
  | m + 1, hm => by
    rw [lookupLoop, lookupLoop_of_populated hp hn m (by omega), ok_bind,
      lookupStep_of_populated hp hn (by omega)]

end populated

end RAMCloud
