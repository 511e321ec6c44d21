import RAMCloud.Benchmark.Measure
import RAMCloud.Benchmark.Histogram

/-! # A run of the benchmark, and `main`

    `hashTableBenchmark(nkeys, nlines)` allocates the table and the array
    `values`, chains the three loops of `RAMCloud.Benchmark.Measure` and the
    averages it prints (each a division by `nkeys`), and ends with the
    chaining histogram of `RAMCloud.Benchmark.Histogram`. What a run reads
    from outside rather than computes — whether each allocation is served,
    the allocator, the cycle counter, the table's performance counters and
    bucket layout, the uninitialised memory it is handed — is an
    `Environment`, so that every statement about a run holds for all of them.

    `main` turns its three options into `(nkeys, nlines)` in 64-bit unsigned
    arithmetic, and in `double` arithmetic where it applies the load factor.

    The run theorem, `hashTableBenchmark_fault`, lists the only ways a run can
    stop early: an allocation that is not served, a division by zero exactly
    when `nkeys = 0`, and an access outside the histogram block (or an `int`
    overflow) while counting depths. In particular no assert ever fails.
-/

namespace RAMCloud

/-! ## Section 1: The run -/

/-- What a run of `hashTableBenchmark` reads from outside. -/
structure Environment where
  /-- Whether `HashTable ht(nlines, keyComparer)` gets the memory for its
      buckets; the constructor is not among the sources. -/
  tableAllocated : Bool
  /-- Whether the allocator serves `new TestObject*[nkeys]`. -/
  valuesAllocated : Bool
  /-- The allocator behind `new TestObject(i)`. -/
  allocator : Allocator
  /-- What the array `new TestObject*[nkeys]` holds before it is written. -/
  values : Nat → UInt64
  /-- `Cycles::rdtsc()` before and after the replace loop. -/
  replaceStart : UInt64
  replaceEnd : UInt64
  /-- `Cycles::rdtsc()` before and after the lookup loop. -/
  lookupStart : UInt64
  lookupEnd : UInt64
  /-- `pc.replaceCycles` and `pc.lookupEntryCycles`, the table's own counters. -/
  replaceCycles : UInt64
  lookupEntryCycles : UInt64
  /-- Whether `Memory::xmalloc` is served the histogram block. -/
  histogramAllocated : Bool
  /-- The bucket array `ht.buckets` as the loops left it. -/
  buckets : Nat → CacheLine
  /-- What the block `xmalloc` returns for the histogram holds. -/
  histogramContent : Nat → UInt8

/-- What a run prints: the external and internal averages of `replace()` and
    `lookup()`, in ticks, and the lines of the chaining histogram. -/
structure Report where
  replaceExternalAvg : UInt64
  replaceInternalAvg : UInt64
  lookupExternalAvg : UInt64
  lookupInternalAvg : UInt64
  chainingHistogram : List (Nat × Fixed4)

/-- The state before the populate loop: no test object yet, an empty table,
    and the uninitialised `values` array. -/
def initialState (env : Environment) : BenchmarkState :=
  ⟨fun _ => none, HashTable.empty, env.values⟩

/-- `new TestObject*[nkeys]`: `nkeys` pointers of 8 bytes, an array that no
    allocator serves once its size `nkeys * 8` passes a `size_t`. -/
def newValues (env : Environment) (nkeys : UInt64) : Except Fault Unit :=
  allocation (decide (nkeys.toNat < 2 ^ 61) && env.valuesAllocated)

/-- `hashTableBenchmark(nkeys, nlines)`. -/
def hashTableBenchmark (env : Environment) (nkeys nlines : UInt64) : Except Fault Report := do
  allocation env.tableAllocated
  newValues env nkeys
  let s ← populate env.allocator nkeys.toNat (initialState env)
  let s := replaceLoop nkeys.toNat s
  let replaceExternalAvg ← divide (env.replaceEnd - env.replaceStart) nkeys
  let replaceInternalAvg ← divide env.replaceCycles nkeys
  lookupLoop s nkeys.toNat
  let lookupExternalAvg ← divide (env.lookupEnd - env.lookupStart) nkeys
  let lookupInternalAvg ← divide env.lookupEntryCycles nkeys
  allocation env.histogramAllocated
  let histogram ← chainingHistogram nlines env.buckets env.histogramContent
  let lines ← printHistogram nlines histogram
  pure ⟨replaceExternalAvg, replaceInternalAvg, lookupExternalAvg, lookupInternalAvg, lines⟩

theorem newValues_eq_ok {env : Environment} {nkeys : UInt64} :
    newValues env nkeys = .ok () ↔ nkeys.toNat < 2 ^ 61 ∧ env.valuesAllocated = true := by
  simp [newValues, allocation]

theorem newValues_fault {env : Environment} {nkeys : UInt64} {e : Fault}
    (h : newValues env nkeys = .error e) : e = .outOfMemory :=
  allocation_fault h

/-! ## Section 2: What a run can end in -/

/-- Before its populate loop a run allocates the table and the `values`
    array, and it stops for lack of memory unless both are served. -/
theorem hashTableBenchmark_unallocated {env : Environment} {nkeys nlines : UInt64}
    (h : ¬(env.tableAllocated = true ∧ newValues env nkeys = .ok ())) :
    hashTableBenchmark env nkeys nlines = .error .outOfMemory := by
  cases htable : env.tableAllocated
  · rw [hashTableBenchmark, htable, allocation_false, error_bind]
  cases hvalues : newValues env nkeys with
  | error e =>
    rw [hashTableBenchmark, htable, allocation_true, ok_bind, hvalues, newValues_fault hvalues,
      error_bind]
  | ok u => exact absurd ⟨htable, hvalues⟩ h

section allocated
variable {env : Environment} {nkeys nlines : UInt64}

/-- Once the table and `values` are allocated, a run starts with the
    populate loop. -/
theorem hashTableBenchmark_of_allocated (htable : env.tableAllocated = true)
    (hvalues : newValues env nkeys = .ok ()) :
    hashTableBenchmark env nkeys nlines = (populate env.allocator nkeys.toNat (initialState env) >>=
      fun s => do
        let s := replaceLoop nkeys.toNat s
        let replaceExternalAvg ← divide (env.replaceEnd - env.replaceStart) nkeys
        let replaceInternalAvg ← divide env.replaceCycles nkeys
        lookupLoop s nkeys.toNat
        let lookupExternalAvg ← divide (env.lookupEnd - env.lookupStart) nkeys
        let lookupInternalAvg ← divide env.lookupEntryCycles nkeys
        allocation env.histogramAllocated
        let histogram ← chainingHistogram nlines env.buckets env.histogramContent
        let lines ← printHistogram nlines histogram
        pure ⟨replaceExternalAvg, replaceInternalAvg, lookupExternalAvg, lookupInternalAvg, lines⟩) := by
  rw [hashTableBenchmark, htable, allocation_true, ok_bind, hvalues, ok_bind]

/-- Once the populate loop is through and there are keys, the replace and
    lookup loops pass and the averages are plain quotients: what is left of
    the run is the chaining histogram. -/
theorem hashTableBenchmark_of_populated {s : BenchmarkState} (htable : env.tableAllocated = true)
    (hvalues : newValues env nkeys = .ok ())
    (hs : populate env.allocator nkeys.toNat (initialState env) = .ok s)
    (hpop : Populated nkeys.toNat s) (hkeys : nkeys ≠ 0) :
    hashTableBenchmark env nkeys nlines = (do
      allocation env.histogramAllocated
      let histogram ← chainingHistogram nlines env.buckets env.histogramContent
      let lines ← printHistogram nlines histogram
      pure ⟨(env.replaceEnd - env.replaceStart) / nkeys, env.replaceCycles / nkeys,
        (env.lookupEnd - env.lookupStart) / nkeys, env.lookupEntryCycles / nkeys, lines⟩) := by
  have hn := (toNat_lt64 nkeys).le
  rw [hashTableBenchmark_of_allocated htable hvalues, hs, ok_bind]
  simp only [replaceLoop_of_populated hpop hn _ le_rfl]
  rw [divide_ok hkeys, ok_bind, divide_ok hkeys, ok_bind, lookupLoop_of_populated hpop hn _ le_rfl,
    ok_bind, divide_ok hkeys, ok_bind, divide_ok hkeys, ok_bind]

end allocated

/-- The only ways a run of `hashTableBenchmark` stops early: an allocation
    that is not served (the table, `values`, a test object or the histogram
    block), a division by zero in the first average when there are no keys,
    or an access outside the histogram block (or an `int` overflow) in the
    chaining histogram. -/
theorem hashTableBenchmark_fault {env : Environment} {nkeys nlines : UInt64} {e : Fault}
    (h : hashTableBenchmark env nkeys nlines = .error e) :
    e = .outOfMemory ∨ (e = .divisionByZero ∧ nkeys = 0) ∨ e = .outOfBounds ∨
      e = .signedOverflow := by
  by_cases halloc : env.tableAllocated = true ∧ newValues env nkeys = .ok ()
  swap
  · rw [hashTableBenchmark_unallocated halloc] at h
    cases h
    exact .inl rfl
  obtain ⟨htable, hvalues⟩ := halloc
  rcases populate_cases env.allocator (initialState env) rfl nkeys.toNat (toNat_lt64 nkeys).le with
    hp | ⟨s, hs, hpop⟩
  · rw [hashTableBenchmark_of_allocated htable hvalues, hp, error_bind] at h
    cases h
    exact .inl rfl
  by_cases hk : nkeys = 0
  · subst hk
    rw [hashTableBenchmark_of_allocated htable hvalues, hs, ok_bind] at h
    cases h
    exact .inr (.inl ⟨rfl, rfl⟩)
  rw [hashTableBenchmark_of_populated htable hvalues hs hpop hk] at h
  rcases bind_eq_error h with h | ⟨_, -, h⟩
  · exact .inl (allocation_fault h)
  rcases bind_eq_error h with h | ⟨_, -, h⟩
  · exact .inr (.inr (chainingHistogram_fault h))
  rcases bind_eq_error h with h | ⟨_, -, h⟩
  · exact .inr (.inr (.inl (printLoop_fault _ _ _ _ h)))
  · cases h

/-- A run divides by zero exactly when the table and `values` are allocated
    and it has no keys. -/
theorem hashTableBenchmark_divisionByZero_iff (env : Environment) (nkeys nlines : UInt64) :
    hashTableBenchmark env nkeys nlines = .error .divisionByZero ↔
      env.tableAllocated = true ∧ env.valuesAllocated = true ∧ nkeys = 0 := by
  by_cases halloc : env.tableAllocated = true ∧ newValues env nkeys = .ok ()
  · obtain ⟨htable, hvalues⟩ := halloc
    refine ⟨fun h => ⟨htable, (newValues_eq_ok.mp hvalues).2, ?_⟩, fun ⟨_, _, hk⟩ => ?_⟩
    · rcases hashTableBenchmark_fault h with h | ⟨-, h⟩ | h | h <;> first | exact h | cases h
    · subst hk
      rw [hashTableBenchmark_of_allocated htable hvalues]
      rfl
  · rw [hashTableBenchmark_unallocated halloc]
    refine ⟨fun h => (nomatch h), fun ⟨htable, hvalues, hk⟩ => (halloc ⟨htable, ?_⟩).elim⟩
    exact newValues_eq_ok.mpr ⟨by rw [hk]; decide, hvalues⟩

/-- Every run of `hashTableBenchmark` passes all four asserts, for every
    number of keys and whatever it reads from outside. When the populate loop
    completes: the key of `i` matches `values[j]` exactly when `i = j`; the
    table maps the key of `i` to `values[i]` for exactly the `i < nkeys`; the
    replace loop, storing the same references again, leaves the table as it
    was; and every lookup of the lookup loop finds its key's object. -/
theorem hashTableBenchmark_assertions (env : Environment) (nkeys nlines : UInt64) :
    (∀ expression, hashTableBenchmark env nkeys nlines ≠ .error (.assertionFailed expression)) ∧
      hashTableBenchmark env nkeys nlines ≠ .error .invalidPointer ∧
      (populate env.allocator nkeys.toNat (initialState env) = .error .outOfMemory ∨
        ∃ s, populate env.allocator nkeys.toNat (initialState env) = .ok s ∧
          (∀ i j : UInt64, i < nkeys → j < nkeys →
            (s.keyComparer (integerKey i) (s.values j.toNat) = true ↔ i = j)) ∧
          (∀ i : UInt64, s.ht.lookup s.keyComparer (integerKey i) =
            if i < nkeys then some (s.values i.toNat) else none) ∧
          replaceLoop nkeys.toNat s = s ∧ lookupLoop s nkeys.toNat = .ok ()) := by
  have hn := (toNat_lt64 nkeys).le
  refine ⟨fun expression h => ?_, fun h => ?_, ?_⟩
  · rcases hashTableBenchmark_fault h with h | ⟨h, -⟩ | h | h <;> cases h
  · rcases hashTableBenchmark_fault h with h | ⟨h, -⟩ | h | h <;> cases h
  refine (populate_cases env.allocator (initialState env) rfl nkeys.toNat hn).imp_right
    fun ⟨s, hs, hpop⟩ => ⟨s, hs, fun i j _ hj => ?_, fun i => ?_,
      replaceLoop_of_populated hpop hn _ le_rfl, lookupLoop_of_populated hpop hn _ le_rfl⟩
  · rw [doesMatch_values hpop hn i (lt_iff_toNat_lt64.mp hj), decide_eq_true_iff]
    exact ⟨fun h => (UInt64.toNat.inj h).symm, fun h => h ▸ rfl⟩
  · simp only [lookup_of_populated hpop hn, lt_iff_toNat_lt64]

/-- A run whose allocations are all served, with at least one key (and an
    array of them that fits a `size_t`), at least one line, and every chain
    shorter than `nlines` (and than `INT_MAX`) prints: the elapsed ticks and
    the table's cycle counters, each divided by `nkeys`, and a chaining
    histogram whose counter `d ≥ 1` holds what the block held plus the
    number of buckets of depth `d`. -/
theorem hashTableBenchmark_report (env : Environment) {nkeys nlines : UInt64}
    (htable : env.tableAllocated = true) (hvalues : env.valuesAllocated = true)
    (hhistogram : env.histogramAllocated = true) (hkeys : nkeys ≠ 0) (harray : nkeys.toNat < 2 ^ 61)
    (hmemory : populate env.allocator nkeys.toNat (initialState env) ≠ .error .outOfMemory)
    (hpos : 1 ≤ nlines.toNat) (hwrap : nlines.toNat < 2 ^ 61)
    (hdepth : ∀ b < nlines.toNat,
      (env.buckets b).length < nlines.toNat ∧ (env.buckets b).length ≤ intMax) :
    hashTableBenchmark env nkeys nlines = .ok
      ⟨(env.replaceEnd - env.replaceStart) / nkeys, env.replaceCycles / nkeys,
        (env.lookupEnd - env.lookupStart) / nkeys, env.lookupEntryCycles / nkeys,
        histogramLines nlines (fun d => if d = 0 then 0 else (xmalloc 0 env.histogramContent).word d +
          UInt64.ofNat (depthCount env.buckets nlines.toNat d)) nlines.toNat⟩ := by
  have hn := (toNat_lt64 nkeys).le
  obtain ⟨s, hs, hpop⟩ := (populate_cases env.allocator (initialState env) rfl nkeys.toNat hn).resolve_left
    hmemory
  obtain ⟨h, hh, hsize, h0, hword⟩ :=
    chainingHistogram_counts env.buckets env.histogramContent hpos hwrap hdepth
  have hcounters : h.word = fun d => if d = 0 then 0 else (xmalloc 0 env.histogramContent).word d +
      UInt64.ofNat (depthCount env.buckets nlines.toNat d) := by
    funext d
    rcases Nat.eq_zero_or_pos d with rfl | hd
    · exact h0
    · rw [if_neg (by omega), hword d hd]
  rw [hashTableBenchmark_of_populated htable (newValues_eq_ok.mpr ⟨harray, hvalues⟩) hs hpop hkeys,
    hhistogram, allocation_true, ok_bind, hh, ok_bind, printHistogram, printLoop_ok _ _ _ (by omega),
    ok_bind, hcounters, pure_eq_ok]

/-- An allocator with a single free address, 64. -/
def singleSlotAllocator : Allocator where
  allocate heap := if heap 64 = none then some 64 else none
  allocate_fresh heap address h := by
    dsimp only at h
    by_cases h64 : heap 64 = none
    · rw [if_pos h64] at h
      cases h
      exact h64
    · rw [if_neg h64] at h
      cases h

/-- One key, two lines of single cache lines, a clean histogram block, and
    every allocation served. -/
def oneKeyEnvironment : Environment where
  tableAllocated := true
  valuesAllocated := true
  allocator := singleSlotAllocator
  values _ := 0
  replaceStart := 100
  replaceEnd := 160
  lookupStart := 200
  lookupEnd := 230
  replaceCycles := 50
  lookupEntryCycles := 20
  histogramAllocated := true
  buckets _ := .unchained
  histogramContent _ := 0

theorem hashTableBenchmark_report_one_key :
    oneKeyEnvironment.tableAllocated = true ∧ oneKeyEnvironment.valuesAllocated = true ∧
      oneKeyEnvironment.histogramAllocated = true ∧ (1 : UInt64) ≠ 0 ∧
      (1 : UInt64).toNat < 2 ^ 61 ∧
      populate singleSlotAllocator (1 : UInt64).toNat (initialState oneKeyEnvironment) ≠
        .error .outOfMemory ∧
      1 ≤ (2 : UInt64).toNat ∧ (2 : UInt64).toNat < 2 ^ 61 ∧
      (∀ b < (2 : UInt64).toNat, (oneKeyEnvironment.buckets b).length < (2 : UInt64).toNat ∧
        (oneKeyEnvironment.buckets b).length ≤ intMax) ∧
      hashTableBenchmark oneKeyEnvironment 1 2 = .ok
        ⟨(160 - 100) / 1, 50 / 1, (230 - 200) / 1, 20 / 1,
          histogramLines 2 (fun d => if d = 0 then 0 else
            (xmalloc 0 oneKeyEnvironment.histogramContent).word d +
              UInt64.ofNat (depthCount oneKeyEnvironment.buckets (2 : UInt64).toNat d))
            (2 : UInt64).toNat⟩ :=
  have hmemory : populate singleSlotAllocator (1 : UInt64).toNat (initialState oneKeyEnvironment) ≠
      .error .outOfMemory := by
    intro h
    cases h
  have hdepth : ∀ b < (2 : UInt64).toNat, (oneKeyEnvironment.buckets b).length < (2 : UInt64).toNat ∧
      (oneKeyEnvironment.buckets b).length ≤ intMax :=
    fun _ _ => ⟨(by decide : 1 < 2), (by decide : 1 ≤ intMax)⟩
  ⟨rfl, rfl, rfl, by decide, by decide, hmemory, by decide, by decide, hdepth,
    hashTableBenchmark_report oneKeyEnvironment rfl rfl rfl (by decide) (by decide) hmemory
      (by decide) (by decide) hdepth⟩

/-- A run of `hashTableBenchmark` runs to its end exactly when the table and
    `values` are allocated (an array of `nkeys` pointers fitting a
    `size_t`), it has keys, the populate loop does not run out of memory,
    the histogram block is allocated, there is a line, the block size
    `nlines * 8` does not wrap, and every chain has fewer cache lines than
    there are lines and no more than `INT_MAX`. -/
theorem hashTableBenchmark_ok_iff (env : Environment) (nkeys nlines : UInt64) :
    (∃ report, hashTableBenchmark env nkeys nlines = .ok report) ↔
      env.tableAllocated = true ∧ env.valuesAllocated = true ∧ nkeys.toNat < 2 ^ 61 ∧
        nkeys ≠ 0 ∧ populate env.allocator nkeys.toNat (initialState env) ≠ .error .outOfMemory ∧
        env.histogramAllocated = true ∧ 1 ≤ nlines.toNat ∧ nlines.toNat < 2 ^ 61 ∧
        ∀ b < nlines.toNat, (env.buckets b).length < nlines.toNat ∧
          (env.buckets b).length ≤ intMax := by
  by_cases halloc : env.tableAllocated = true ∧ newValues env nkeys = .ok ()
  swap
  · rw [hashTableBenchmark_unallocated halloc]
    simp only [reduceCtorEq, exists_false, false_iff]
    rintro ⟨htable, hvalues, harray, -⟩
    exact halloc ⟨htable, newValues_eq_ok.mpr ⟨harray, hvalues⟩⟩
  obtain ⟨htable, hvalues⟩ := halloc
  obtain ⟨harray, hvalloc⟩ := newValues_eq_ok.mp hvalues
  rcases populate_cases env.allocator (initialState env) rfl nkeys.toNat (toNat_lt64 nkeys).le with
    hp | ⟨s, hs, hpop⟩
  · simp [hashTableBenchmark_of_allocated htable hvalues, hp]
  by_cases hk : nkeys = 0
  · subst hk
    simp [(hashTableBenchmark_divisionByZero_iff env 0 nlines).mpr ⟨htable, hvalloc, rfl⟩]
  rw [hashTableBenchmark_of_populated htable hvalues hs hpop hk]
  cases hhistogram : env.histogramAllocated
  · simp
  rw [allocation_true, ok_bind, ← chainingHistogram_print_ok_iff nlines env.buckets env.histogramContent]
  simp [htable, hvalloc, harray, hk, hs, exists_bind_eq_ok, -Nat.reducePow]

/-! ## Section 3: `main` -/

/-- The options of `main`, with their defaults. -/
structure Options where
  /-- `HashTableMegs`: megabytes of memory allocated to the table. -/
  hashTableMegs : UInt64 := 1
  /-- `LoadFactor`: the load factor desired, from which the number of keys
      is computed; the option parser reads its text as the nearest
      `double`. -/
  loadFactor : Double := 0.50
  /-- `NumberOfKeys`: the number of keys to insert; unless zero, it
      overrides the load factor. -/
  numberOfKeys : UInt64 := 0

/-- What `main` computes before the run: `numberOfKeys` and
    `numberOfCachelines`, the arguments of `hashTableBenchmark`. -/
def mainArguments (geometry : CacheGeometry) (options : Options) :
    Except Fault (UInt64 × UInt64) := do
  let numberOfCachelines := options.hashTableMegs * 1024 * 1024 / geometry.bytesPerCacheLine
  let numberOfKeys ← if options.numberOfKeys = 0 then
      let totalEntries := numberOfCachelines * geometry.entriesPerCacheLine
      castToUInt64 (options.loadFactor.mul (Double.ofUInt64 totalEntries))
    else .ok options.numberOfKeys
  pure (numberOfKeys, numberOfCachelines)

/-- `main`, once the options are parsed. -/
def main (geometry : CacheGeometry) (env : Environment) (options : Options) :
    Except Fault Report := do
  let (numberOfKeys, numberOfCachelines) ← mainArguments geometry options
  hashTableBenchmark env numberOfKeys numberOfCachelines

/-- What `main` hands to the run: `hashTableMegs * 1024 * 1024 /
    bytesPerCacheLine` lines, in 64-bit arithmetic, and no keys exactly when
    `NumberOfKeys` is zero and the `double` product of the load factor and
    the number of entries is below one. -/
theorem mainArguments_spec {geometry : CacheGeometry} {options : Options} {nkeys nlines : UInt64}
    (h : mainArguments geometry options = .ok (nkeys, nlines)) :
    nlines = options.hashTableMegs * 1024 * 1024 / geometry.bytesPerCacheLine ∧
      (nkeys = 0 ↔ options.numberOfKeys = 0 ∧
        ∃ x, options.loadFactor.mul (.ofUInt64 (nlines * geometry.entriesPerCacheLine)) =
          .finite x ∧ x.toRat < 1) := by
  unfold mainArguments at h
  dsimp only at h
  split_ifs at h with hk
  · obtain ⟨v, hv, h⟩ := bind_eq_ok h
    cases h
    exact ⟨rfl, by rw [castToUInt64_eq_zero_iff hv]; simp [hk]⟩
  · cases h
    exact ⟨rfl, by simp [hk]⟩

/-- The product is rounded before it is truncated. With 5 megabytes, the
    `double` nearest `0.7`, a little below it, times the 655360 entries
    rounds up to 458752 keys, where the exact product truncates to 458751;
    and with 3 megabytes, the `double` nearest `1 / 393216` times the 393216
    entries rounds to one key. -/
example : mainArguments cacheLine64 { hashTableMegs := 5, loadFactor := 0.7 } = .ok (458752, 81920) ∧
    mainArguments cacheLine64 { hashTableMegs := 3, loadFactor := (1.0 : Double).div (.ofUInt64 393216) } =
      .ok (1, 49152) := ⟨rfl, rfl⟩

/-- The number of cache lines, `hashTableMegs * 1024 * 1024 /
    bytesPerCacheLine`: the product is taken modulo `2 ^ 64`. -/
theorem toNat_numberOfCachelines (megs bytes : UInt64) :
    (megs * 1024 * 1024 / bytes).toNat = megs.toNat * 2 ^ 20 % 2 ^ 64 / bytes.toNat := by
  have h1024 : (1024 : UInt64).toNat = 1024 := rfl
  rw [UInt64.toNat_div, toNat_mul64, toNat_mul64, h1024, Nat.mod_mul_mod, Nat.mul_assoc,
    show 1024 * 1024 = 2 ^ 20 from rfl]

/-- What `main` does with its options: the number of cache lines is
    `hashTableMegs * 2 ^ 20`, modulo `2 ^ 64`, over the size of a cache
    line, which below `2 ^ 44` megabytes is the exact quotient; and the run
    divides by zero exactly when the table and `values` are allocated,
    `NumberOfKeys` is zero and the `double` product of the load factor and
    the number of entries is below one. -/
theorem main_division_by_zero (geometry : CacheGeometry) (options : Options)
    {nkeys nlines : UInt64} (h : mainArguments geometry options = .ok (nkeys, nlines)) :
    nlines.toNat = options.hashTableMegs.toNat * 2 ^ 20 % 2 ^ 64 / geometry.bytesPerCacheLine.toNat ∧
      (options.hashTableMegs.toNat < 2 ^ 44 →
        nlines.toNat = options.hashTableMegs.toNat * 2 ^ 20 / geometry.bytesPerCacheLine.toNat) ∧
      ∀ env, (main geometry env options = .error .divisionByZero ↔
        env.tableAllocated = true ∧ env.valuesAllocated = true ∧ options.numberOfKeys = 0 ∧
          ∃ x, options.loadFactor.mul (.ofUInt64 (nlines * geometry.entriesPerCacheLine)) =
            .finite x ∧ x.toRat < 1) := by
  obtain ⟨hlines, hkeys⟩ := mainArguments_spec h
  have hwrapped : nlines.toNat =
      options.hashTableMegs.toNat * 2 ^ 20 % 2 ^ 64 / geometry.bytesPerCacheLine.toNat := by
    rw [hlines, toNat_numberOfCachelines]
  refine ⟨hwrapped, fun hm => by rw [hwrapped, Nat.mod_eq_of_lt (by omega)], fun env => ?_⟩
  rw [main, h, ok_bind, hashTableBenchmark_divisionByZero_iff, hkeys]

/-- With the defaults on 64-byte lines of eight entries: 16384 lines and
    65536 keys, and no division by zero. -/
theorem main_division_by_zero_defaults :
    mainArguments cacheLine64 {} = .ok (65536, 16384) ∧
      ((16384 : UInt64).toNat = (1 : UInt64).toNat * 2 ^ 20 % 2 ^ 64 / (64 : UInt64).toNat ∧
        ((1 : UInt64).toNat < 2 ^ 44 →
          (16384 : UInt64).toNat = (1 : UInt64).toNat * 2 ^ 20 / (64 : UInt64).toNat) ∧
        ∀ env, (main cacheLine64 env {} = .error .divisionByZero ↔
          env.tableAllocated = true ∧ env.valuesAllocated = true ∧ (0 : UInt64) = 0 ∧
            ∃ x, (0.50 : Double).mul (.ofUInt64 ((16384 : UInt64) * 8)) = .finite x ∧
              x.toRat < 1)) :=
  have h : mainArguments cacheLine64 {} = .ok (65536, 16384) := rfl
  ⟨h, main_division_by_zero cacheLine64 {} h⟩

/-- On 64-byte lines of eight entries: a load factor of zero makes `main`
    hand the run no keys, and every run whose table and `values` are
    allocated divides by zero; and `2 ^ 44` megabytes wrap to no cache line
    at all, where the quotient is `2 ^ 58`. -/
theorem main_zero_load_factor :
    mainArguments cacheLine64 { loadFactor := 0.0 } = .ok (0, 16384) ∧
      (∀ env, main cacheLine64 env { loadFactor := 0.0 } = .error .divisionByZero ↔
        env.tableAllocated = true ∧ env.valuesAllocated = true) ∧
      mainArguments cacheLine64 { hashTableMegs := 17592186044416, numberOfKeys := 1 } =
        .ok (1, 0) := by
  have h : mainArguments cacheLine64 { loadFactor := 0.0 } = .ok (0, 16384) := rfl
  refine ⟨h, fun env => ?_, rfl⟩
  rw [main, h, ok_bind, hashTableBenchmark_divisionByZero_iff]
  simp

end RAMCloud
