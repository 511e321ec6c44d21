import Mathlib.Algebra.BigOperators.Ring
import RAMCloud.Double
import RAMCloud.HashTable

/-! # The chaining histogram

    The last part of `hashTableBenchmark(nkeys, nlines)` counts, for each
    chain depth, the buckets whose chain has that many cache lines:

    - `histogram = xmalloc(nlines * sizeof(histogram[0]))`, a block of
      `nlines` counters that `Memory::xmalloc` does not clear;
    - `memset(histogram, 0, sizeof(nlines * sizeof(histogram[0])))`;
    - for each bucket `i < nlines`, `depth` starts at 1 and grows by one per
      chain pointer followed, then `histogram[depth]++`;
    - for each `i < nlines` with `histogram[i] != 0`, it prints `i` and the
      `double` `histogram[i] * 100.0 / nlines` with `%.4f`.

    The `memset` clears `sizeof` of a `size_t` expression, 8 bytes: only
    `histogram[0]`, which no bucket ever counts, since every depth is at
    least 1. So each counter `d ≥ 1` ends as whatever the block held plus the
    number of buckets of depth `d` (`chainingHistogram_counts`); and since a
    depth can reach `nlines`, `histogram[depth]` can fall outside the block,
    which happens exactly when some chain has `nlines` cache lines or more
    (`chainingHistogram_ok_iff`).

    The block size `nlines * 8` is a 64-bit product, which wraps from `2 ^ 61`
    lines on; the print loop then reads past the block, so the histogram
    code and its print loop run to their end exactly when `1 ≤ nlines <
    2 ^ 61` and every chain is shorter than `nlines` and than `INT_MAX`
    (`chainingHistogram_print_ok_iff`). Only when the block happens to hold
    zeros in the counters the `memset` skips does each counter hold the
    number of buckets of its depth, counters that add up to `nlines`
    (`chainingHistogram_clean_block`).
-/

namespace RAMCloud

/-! ## Section 1: The chain walk -/

/-- `INT_MAX`, the largest value of the `int` that counts a chain's depth. -/
def intMax : Nat := 2147483647

/-- The walk along a bucket's chain: `depth++` for each chain pointer
    followed, `while ((cl = entry->getChainPointer()) != NULL)`. The counter
    is an `int`, whose overflow is undefined. -/
def chainDepth (depth : Nat) : CacheLine → Except Fault Nat
  | .unchained => .ok depth
  | .chained next => if depth < intMax then chainDepth (depth + 1) next else .error .signedOverflow

/-- The walk counts the cache lines of the chain, unless the count passes
    `INT_MAX`. -/
theorem chainDepth_eq {depth : Nat} (cl : CacheLine) (h : depth ≤ intMax) :
    chainDepth depth cl = if depth + cl.length ≤ intMax + 1
      then .ok (depth + cl.length - 1) else .error .signedOverflow := by
  induction cl generalizing depth with
  | unchained => simp [chainDepth, CacheLine.length, h]
  | chained next ih =>
    have := next.one_le_length
    by_cases hd : depth < intMax
    · rw [chainDepth, if_pos hd, ih (by omega), CacheLine.length]
      simp only [Nat.add_assoc, Nat.add_comm 1 next.length]
    · rw [chainDepth, if_neg hd, CacheLine.length, if_neg (by omega)]

/-- The depth of a bucket, as the histogram code computes it. -/
theorem chainDepth_one (cl : CacheLine) :
    chainDepth 1 cl = if cl.length ≤ intMax then .ok cl.length else .error .signedOverflow := by
  rw [chainDepth_eq cl (by decide)]
  simp only [Nat.add_comm 1, Nat.add_sub_cancel, Nat.add_le_add_iff_right]

/-! ## Section 2: Counting -/

/-- How many of the buckets `0, ..., n - 1` have a chain of `d` cache lines. -/
def depthCount (buckets : Nat → CacheLine) (n d : Nat) : Nat :=
  (List.range n).countP fun b => (buckets b).length = d

theorem depthCount_succ (buckets : Nat → CacheLine) (n d : Nat) :
    depthCount buckets (n + 1) d = depthCount buckets n d + if (buckets n).length = d then 1 else 0 := by
  simp [depthCount, List.range_succ, List.countP_append, List.countP_cons]

theorem depthCount_le (buckets : Nat → CacheLine) (n d : Nat) : depthCount buckets n d ≤ n :=
  (List.countP_le_length _).trans_eq (List.length_range n)

theorem depthCount_zero_depth (buckets : Nat → CacheLine) (n : Nat) : depthCount buckets n 0 = 0 := by
  simp [depthCount, List.countP_eq_zero, Nat.ne_of_gt (CacheLine.one_le_length _)]

/-- Iteration `i` of the depth loop: walk the chain of bucket `i`, then
    `histogram[depth]++`. -/
def countDepth (buckets : Nat → CacheLine) (i : Nat) (histogram : Buffer) :
    Except Fault Buffer := do
  let depth ← chainDepth 1 (buckets i)
  let count ← histogram.load depth
  histogram.store depth (count + 1)

/-- The first `n` iterations of the depth loop. -/
def countDepths (buckets : Nat → CacheLine) : Nat → Buffer → Except Fault Buffer
  | 0, histogram => .ok histogram
  | n + 1, histogram => countDepths buckets n histogram >>= countDepth buckets n

/-- What one iteration does: stop on an `int` overflow if the chain has
    more than `INT_MAX` cache lines, stop on an access outside the block if
    `histogram[depth]` lies past it, and otherwise increment that counter. -/
theorem countDepth_eq (buckets : Nat → CacheLine) (i : Nat) (histogram : Buffer) :
    countDepth buckets i histogram =
      if (buckets i).length ≤ intMax then
        if 8 * (buckets i).length + 8 ≤ histogram.size then
          .ok (histogram.setWord (buckets i).length (histogram.word (buckets i).length + 1))
        else .error .outOfBounds
      else .error .signedOverflow := by
  rw [countDepth, chainDepth_one]
  split_ifs with hmax hin
  · rw [ok_bind, Buffer.load_ok hin, ok_bind, Buffer.store_ok _ hin]
  · rw [ok_bind, Buffer.load_outOfBounds (by omega), error_bind]
  · rfl

theorem countDepth_eq_ok {buckets : Nat → CacheLine} {i : Nat} {histogram h : Buffer} :
    countDepth buckets i histogram = .ok h ↔
      (buckets i).length ≤ intMax ∧ 8 * (buckets i).length + 8 ≤ histogram.size ∧
        h = histogram.setWord (buckets i).length (histogram.word (buckets i).length + 1) := by
  rw [countDepth_eq]
  split_ifs <;> simp [*, eq_comm]

theorem countDepth_fault {buckets : Nat → CacheLine} {i : Nat} {histogram : Buffer} {e : Fault}
    (h : countDepth buckets i histogram = .error e) : e = .outOfBounds ∨ e = .signedOverflow := by
  rw [countDepth_eq] at h
  split_ifs at h <;> cases h <;> simp

/-- Where every walk stays within `INT_MAX` and every `histogram[depth]`
    inside the block, the depth loop adds to each counter the number of
    buckets of that depth. -/
theorem countDepths_ok (buckets : Nat → CacheLine) (histogram : Buffer) :
    ∀ n : Nat, (∀ b < n, (buckets b).length ≤ intMax ∧
        8 * (buckets b).length + 8 ≤ histogram.size) →
      ∃ h, countDepths buckets n histogram = .ok h ∧ h.size = histogram.size ∧
        ∀ d, h.word d = histogram.word d + UInt64.ofNat (depthCount buckets n d)
  | 0, _ => ⟨histogram, rfl, rfl, fun d => by simp [depthCount]⟩
  | n + 1, hb => by
    obtain ⟨h, hok, hsize, hword⟩ := countDepths_ok buckets histogram n fun b hb' => hb b (by omega)
    obtain ⟨hmax, hin⟩ := hb n (by omega)
    set depth := (buckets n).length
    refine ⟨h.setWord depth (h.word depth + 1), ?_, by simp [hsize], fun d => ?_⟩
    · rw [countDepths, hok, ok_bind, countDepth_eq_ok]
      exact ⟨hmax, by omega, rfl⟩
    · rw [depthCount_succ]
      by_cases hd : depth = d
      · rw [← hd, Buffer.word_setWord_self, hword, if_pos rfl, add_ofNat_succ64]
      · rw [Buffer.word_setWord_ne _ _ (Ne.symm hd), hword, if_neg hd, Nat.add_zero]

/-- A depth loop that runs to its end walked every chain within `INT_MAX`
    and touched only counters inside the block. -/
theorem countDepths_in_bounds (buckets : Nat → CacheLine) (histogram : Buffer) :
    ∀ (n : Nat) (h : Buffer), countDepths buckets n histogram = .ok h →
      h.size = histogram.size ∧ ∀ b < n, (buckets b).length ≤ intMax ∧
        8 * (buckets b).length + 8 ≤ histogram.size
  | 0, _, hok => by cases hok; exact ⟨rfl, fun _ hb => absurd hb (Nat.not_lt_zero _)⟩
  | n + 1, h, hok => by
    rw [countDepths] at hok
    obtain ⟨h₁, h₁ok, hok⟩ := bind_eq_ok hok
    obtain ⟨hmax, hin, rfl⟩ := countDepth_eq_ok.mp hok
    obtain ⟨hsize, hb⟩ := countDepths_in_bounds buckets histogram n h₁ h₁ok
    refine ⟨by simp [hsize], fun b hb' => ?_⟩
    rcases Nat.lt_succ_iff_lt_or_eq.mp hb' with hb' | rfl
    · exact hb b hb'
    · exact ⟨hmax, hsize ▸ hin⟩

/-- The depth loop runs to its end exactly when every walk stays within
    `INT_MAX` and every counter it increments lies inside the block. -/
theorem countDepths_ok_iff (buckets : Nat → CacheLine) (histogram : Buffer) (n : Nat) :
    (∃ h, countDepths buckets n histogram = .ok h) ↔
      ∀ b < n, (buckets b).length ≤ intMax ∧ 8 * (buckets b).length + 8 ≤ histogram.size :=
  ⟨fun ⟨h, hok⟩ => (countDepths_in_bounds buckets histogram n h hok).2,
    fun hb => (countDepths_ok buckets histogram n hb).imp fun _ h => h.1⟩

/-- The depth loop only ever stops on an access outside the block or an
    `int` overflow. -/
theorem countDepths_fault (buckets : Nat → CacheLine) (histogram : Buffer) :
    ∀ (n : Nat) (e : Fault), countDepths buckets n histogram = .error e →
      e = .outOfBounds ∨ e = .signedOverflow
  | 0, _, h => by cases h
  | n + 1, e, h => by
    rw [countDepths] at h
    rcases bind_eq_error h with h | ⟨_, -, h⟩
    · exact countDepths_fault buckets histogram n e h
    · exact countDepth_fault h

/-! ## Section 3: The histogram code -/

/-- `nlines * sizeof(histogram[0])`: the block size asked of `xmalloc`, a
    `size_t` product. -/
def histogramBytes (nlines : UInt64) : UInt64 := nlines * 8

/-- `sizeof(nlines * sizeof(histogram[0]))`: the size of the `size_t` that
    the expression evaluates to, which is the count handed to `memset`. -/
def clearedBytes : Nat := 8

/-- The histogram code of `hashTableBenchmark`, from the `xmalloc` to the end
    of the depth loop, when the block `xmalloc` returns holds `content`. -/
def chainingHistogram (nlines : UInt64) (buckets : Nat → CacheLine) (content : Nat → UInt8) :
    Except Fault Buffer := do
  let histogram ← memset (xmalloc (histogramBytes nlines).toNat content) 0 clearedBytes
  countDepths buckets nlines.toNat histogram

theorem toNat_histogramBytes {nlines : UInt64} (h : nlines.toNat < 2 ^ 61) :
    (histogramBytes nlines).toNat = 8 * nlines.toNat := by
  have h8 : (8 : UInt64).toNat = 8 := rfl
  rw [histogramBytes, toNat_mul64, h8]
  omega

theorem chainingHistogram_fault {nlines : UInt64} {buckets : Nat → CacheLine}
    {content : Nat → UInt8} {e : Fault} (h : chainingHistogram nlines buckets content = .error e) :
    e = .outOfBounds ∨ e = .signedOverflow := by
  rw [chainingHistogram] at h
  rcases bind_eq_error h with h | ⟨_, -, h⟩
  · exact .inl (memset_fault h)
  · exact countDepths_fault buckets _ _ e h

/-- With no table line at all, the `memset` already writes past the empty
    block. -/
theorem chainingHistogram_zero_lines (buckets : Nat → CacheLine) (content : Nat → UInt8) :
    chainingHistogram 0 buckets content = .error .outOfBounds := by
  rw [chainingHistogram, memset_outOfBounds _ (by show (histogramBytes 0).toNat < 8; decide),
    error_bind]

/-- What the depth loop leaves in the histogram: counter `0` is zero, as is
    the number of buckets of depth 0, and each counter `d ≥ 1` holds what the
    block held before plus the number of buckets of depth `d`. This needs at
    least one line (for the `memset`), fewer than `2 ^ 61` (so that the block
    size does not wrap), and every chain shorter than `nlines` and than
    `INT_MAX`. -/
theorem chainingHistogram_counts {nlines : UInt64} (buckets : Nat → CacheLine)
    (content : Nat → UInt8) (hpos : 1 ≤ nlines.toNat) (hwrap : nlines.toNat < 2 ^ 61)
    (hdepth : ∀ b < nlines.toNat, (buckets b).length < nlines.toNat ∧ (buckets b).length ≤ intMax) :
    ∃ h, chainingHistogram nlines buckets content = .ok h ∧ h.size = 8 * nlines.toNat ∧
      h.word 0 = 0 ∧ ∀ d, 1 ≤ d →
        h.word d = (xmalloc 0 content).word d + UInt64.ofNat (depthCount buckets nlines.toNat d) := by
  have hsize : (xmalloc (histogramBytes nlines).toNat content).size = 8 * nlines.toNat :=
    toNat_histogramBytes hwrap
  obtain ⟨h, hok, hsize', hword⟩ := countDepths_ok buckets
    ((xmalloc (histogramBytes nlines).toNat content).fill 0 clearedBytes) nlines.toNat
    fun b hb => ⟨(hdepth b hb).2, by have := (hdepth b hb).1; simp only [Buffer.size_fill, hsize]; omega⟩
  refine ⟨h, ?_, by rw [hsize', Buffer.size_fill, hsize], ?_, fun d hd => ?_⟩
  · rw [chainingHistogram, memset_ok _ (by rw [hsize]; show 8 ≤ _; omega), ok_bind, hok]
  · rw [hword, Buffer.word_fill_zero _ (by decide), depthCount_zero_depth]
    rfl
  · rw [hword, Buffer.word_fill_frame _ _ (by simp [clearedBytes]; omega)]
    rfl

/-- With a single line, the one bucket has depth 1, and `histogram[1]++`
    already lies past the one-counter block, whatever the block holds. -/
theorem chainingHistogram_one_line (content : Nat → UInt8) :
    chainingHistogram 1 (fun _ => .unchained) content = .error .outOfBounds := rfl

/-- The histogram code stays inside its block (and within `INT_MAX`) exactly
    when there is a line and every chain has fewer cache lines than there are
    lines; depths of `nlines` or more index past the block. -/
theorem chainingHistogram_ok_iff {nlines : UInt64} (buckets : Nat → CacheLine)
    (content : Nat → UInt8) (hwrap : nlines.toNat < 2 ^ 61)
    (hmax : ∀ b < nlines.toNat, (buckets b).length ≤ intMax) :
    (∃ h, chainingHistogram nlines buckets content = .ok h) ↔
      1 ≤ nlines.toNat ∧ ∀ b < nlines.toNat, (buckets b).length < nlines.toNat := by
  have hsize := toNat_histogramBytes hwrap
  rcases Nat.eq_zero_or_pos nlines.toNat with h0 | hpos
  · have : nlines = 0 := UInt64.toNat.inj h0
    subst this
    simp [chainingHistogram_zero_lines]
  · rw [chainingHistogram, memset_ok _ (by simp [xmalloc, clearedBytes, hsize]; omega), ok_bind,
      countDepths_ok_iff]
    simp only [Buffer.size_fill, xmalloc, hsize]
    exact ⟨fun hb => ⟨hpos, fun b h => by have := (hb b h).2; omega⟩,
      fun ⟨_, hb⟩ b h => ⟨hmax b h, by have := hb b h; omega⟩⟩

theorem chainingHistogram_ok_iff_two_lines :
    (2 : UInt64).toNat < 2 ^ 61 ∧ (∀ b < (2 : UInt64).toNat, CacheLine.unchained.length ≤ intMax) ∧
      ((∃ h, chainingHistogram 2 (fun _ => .unchained) (fun _ => 0) = .ok h) ↔
        1 ≤ (2 : UInt64).toNat ∧ ∀ b < (2 : UInt64).toNat, CacheLine.unchained.length < (2 : UInt64).toNat) :=
  have hmax : ∀ b < (2 : UInt64).toNat, CacheLine.unchained.length ≤ intMax := fun _ _ => by decide
  ⟨by decide, hmax, chainingHistogram_ok_iff (fun _ => .unchained) (fun _ => 0) (by decide) hmax⟩

/-! ## Section 4: The print loop -/

/-- `static_cast<double>(histogram[i]) * 100.0 / static_cast<double>(nlines)`,
    the percentage printed for a counter, each operation rounded to the
    nearest `double`. -/
def percent (nlines count : UInt64) : Double :=
  ((Double.ofUInt64 count).mul 100.0).div (Double.ofUInt64 nlines)

/-- Four buckets of six print `66.6667` and one `16.6667`: with depths 1, 1,
    1, 1, 2 and 3 the printed shares add up to `100.0001`. -/
example : (percent 6 4).printFixed4 = .decimal 666667 ∧
    (percent 6 1).printFixed4 = .decimal 166667 := by decide

/-- Iteration `i` of the print loop, `printf("%5lu: %.4f%%\n", i, percent)`
    unless `histogram[i]` is zero: a line is the index and the percentage as
    `%.4f` prints it. -/
def printLine (nlines : UInt64) (histogram : Buffer) (i : Nat) :
    Except Fault (Option (Nat × Fixed4)) := do
  let count ← histogram.load i
  pure (if count = 0 then none else some (i, (percent nlines count).printFixed4))

/-- The first `n` iterations of the print loop, with the lines printed. -/
def printLoop (nlines : UInt64) (histogram : Buffer) : Nat → Except Fault (List (Nat × Fixed4))
  | 0 => .ok []
  | n + 1 => do
    let lines ← printLoop nlines histogram n
    let line ← printLine nlines histogram n
    pure (lines ++ line.toList)

/-- The print loop over the `nlines` counters. -/
def printHistogram (nlines : UInt64) (histogram : Buffer) : Except Fault (List (Nat × Fixed4)) :=
  printLoop nlines histogram nlines.toNat

/-- The lines that the counters `counter 0, ..., counter (n - 1)` make: one
    for each nonzero counter, in order. -/
def histogramLines (nlines : UInt64) (counter : Nat → UInt64) (n : Nat) : List (Nat × Fixed4) :=
  (List.range n).filterMap fun i =>
    if counter i = 0 then none else some (i, (percent nlines (counter i)).printFixed4)

/-- Inside the block, the print loop prints the nonzero counters. -/
theorem printLoop_ok (nlines : UInt64) (histogram : Buffer) :
    ∀ n, 8 * n ≤ histogram.size → printLoop nlines histogram n = .ok (histogramLines nlines histogram.word n)
  | 0, _ => rfl
  | n + 1, hn => by
    rw [printLoop, printLoop_ok nlines histogram n (by omega), ok_bind, printLine,
      Buffer.load_ok (by omega), ok_bind]
    by_cases h : histogram.word n = 0 <;>
      simp [histogramLines, List.range_succ, List.filterMap_append, h]

/-- A block whose counter `1` still holds 5 from an earlier use. -/
def staleCounterMemory : Nat → UInt8 := fun k => if k = 8 then 5 else 0

/-- Two lines whose buckets are single cache lines, in a block that held 5 in
    counter `1`: both buckets have depth 1, yet counter `1` ends at 7, and the
    histogram prints `350.0000%` for depth 1 where 100% is the count. -/
theorem chainingHistogram_stale_counter :
    depthCount (fun _ => .unchained) 2 1 = 2 ∧
      (chainingHistogram 2 (fun _ => .unchained) staleCounterMemory >>= printHistogram 2) =
        .ok [(1, .decimal 3500000)] := by
  obtain ⟨h, hok, hsize, h0, h1⟩ : ∃ h,
      chainingHistogram 2 (fun _ => .unchained) staleCounterMemory = .ok h ∧
        h.size = 16 ∧ h.word 0 = 0 ∧ h.word 1 = 7 := ⟨_, rfl, rfl, by decide, by decide⟩
  refine ⟨by decide, ?_⟩
  rw [hok, ok_bind, printHistogram, printLoop_ok _ _ _ (by rw [hsize]; decide)]
  have hlines : histogramLines 2 h.word 2 = [(1, (percent 2 7).printFixed4)] := by
    simp only [histogramLines, show List.range 2 = [0, 1] from rfl, List.filterMap_cons,
      List.filterMap_nil, h0, h1, if_true, if_neg (show (7 : UInt64) ≠ 0 by decide)]
  have h350 : (percent 2 7).printFixed4 = .decimal 3500000 := by decide
  rw [show (2 : UInt64).toNat = 2 from rfl, hlines, h350]

/-- The print loop only ever stops on an access outside the block. -/
theorem printLoop_fault (nlines : UInt64) (histogram : Buffer) :
    ∀ (n : Nat) (e : Fault), printLoop nlines histogram n = .error e → e = .outOfBounds
  | 0, _, h => by cases h
  | n + 1, e, h => by
    rw [printLoop] at h
    rcases bind_eq_error h with h | ⟨_, -, h⟩
    · exact printLoop_fault nlines histogram n e h
    rcases bind_eq_error h with h | ⟨_, -, h⟩
    · rcases bind_eq_error h with h | ⟨_, -, h⟩
      · exact Buffer.load_fault h
      · cases h
    · cases h

/-- The print loop runs to its end exactly when its last read, of counter
    `n - 1`, lies inside the block. -/
theorem printLoop_ok_iff (nlines : UInt64) (histogram : Buffer) (n : Nat) :
    (∃ lines, printLoop nlines histogram n = .ok lines) ↔ 8 * n ≤ histogram.size := by
  refine ⟨fun ⟨lines, h⟩ => ?_, fun h => ⟨_, printLoop_ok nlines histogram n h⟩⟩
  cases n with
  | zero => omega
  | succ n =>
    rw [printLoop] at h
    obtain ⟨_, -, h⟩ := bind_eq_ok h
    obtain ⟨_, h, -⟩ := bind_eq_ok h
    obtain ⟨_, h, -⟩ := bind_eq_ok h
    by_contra hout
    rw [Buffer.load_outOfBounds (by omega)] at h
    cases h

/-- The lines depend only on the counters they are made from. -/
theorem histogramLines_congr {nlines : UInt64} {counter counter' : Nat → UInt64} {n : Nat}
    (h : ∀ i < n, counter i = counter' i) :
    histogramLines nlines counter n = histogramLines nlines counter' n :=
  List.filterMap_congr fun i hi => by rw [h i (List.mem_range.mp hi)]

/-! ## Section 5: The histogram code for every number of lines -/

/-- What a histogram code that ran to its end did: the block of
    `nlines * 8` bytes (a 64-bit product) had room for the 8 bytes the
    `memset` clears, every walk stayed within `INT_MAX` and every counter it
    incremented lay inside the block; the histogram left has the block's
    size. -/
theorem chainingHistogram_eq_ok {nlines : UInt64} {buckets : Nat → CacheLine}
    {content : Nat → UInt8} {h : Buffer} (hok : chainingHistogram nlines buckets content = .ok h) :
    h.size = (histogramBytes nlines).toNat ∧ clearedBytes ≤ (histogramBytes nlines).toNat ∧
      ∀ b < nlines.toNat, (buckets b).length ≤ intMax ∧
        8 * (buckets b).length + 8 ≤ (histogramBytes nlines).toNat := by
  rw [chainingHistogram] at hok
  obtain ⟨_, hmemset, hok⟩ := bind_eq_ok hok
  unfold memset at hmemset
  split_ifs at hmemset with hclear
  cases hmemset
  exact ⟨(countDepths_in_bounds buckets _ _ h hok).1, hclear,
    (countDepths_in_bounds buckets _ _ h hok).2⟩

/-- Conversely, where the `memset` and every walk and increment fit, the
    histogram code runs to its end. -/
theorem chainingHistogram_of_fits {nlines : UInt64} (buckets : Nat → CacheLine)
    (content : Nat → UInt8) (hclear : clearedBytes ≤ (histogramBytes nlines).toNat)
    (hb : ∀ b < nlines.toNat, (buckets b).length ≤ intMax ∧
      8 * (buckets b).length + 8 ≤ (histogramBytes nlines).toNat) :
    ∃ h, chainingHistogram nlines buckets content = .ok h ∧
      h.size = (histogramBytes nlines).toNat := by
  obtain ⟨h, hok, hsize, -⟩ := countDepths_ok buckets
    ((xmalloc (histogramBytes nlines).toNat content).fill 0 clearedBytes) nlines.toNat hb
  exact ⟨h, by rw [chainingHistogram, memset_ok _ hclear, ok_bind, hok], hsize⟩

/-- The block holds the 8 bytes the `memset` clears and the `nlines`
    counters the print loop reads exactly when there is a line and the
    product `nlines * 8` does not wrap. -/
theorem histogramBytes_fits (nlines : UInt64) :
    clearedBytes ≤ (histogramBytes nlines).toNat ∧ 8 * nlines.toNat ≤ (histogramBytes nlines).toNat ↔
      1 ≤ nlines.toNat ∧ nlines.toNat < 2 ^ 61 := by
  have h8 : (8 : UInt64).toNat = 8 := rfl
  have := toNat_lt64 nlines
  rw [histogramBytes, toNat_mul64, h8, clearedBytes]
  omega

/-- The histogram code and its print loop run to their end exactly when
    there is a line, the block size `nlines * 8` does not wrap, and every
    chain has fewer cache lines than there are lines and no more than
    `INT_MAX`. -/
theorem chainingHistogram_print_ok_iff (nlines : UInt64) (buckets : Nat → CacheLine)
    (content : Nat → UInt8) :
    (∃ lines, (chainingHistogram nlines buckets content >>= printHistogram nlines) = .ok lines) ↔
      1 ≤ nlines.toNat ∧ nlines.toNat < 2 ^ 61 ∧
        ∀ b < nlines.toNat, (buckets b).length < nlines.toNat ∧ (buckets b).length ≤ intMax := by
  rw [exists_bind_eq_ok]
  constructor
  · rintro ⟨h, hok, hprint⟩
    obtain ⟨hsize, hclear, hb⟩ := chainingHistogram_eq_ok hok
    rw [printHistogram, printLoop_ok_iff, hsize] at hprint
    obtain ⟨hpos, hwrap⟩ := (histogramBytes_fits nlines).mp ⟨hclear, hprint⟩
    rw [toNat_histogramBytes hwrap] at hb
    exact ⟨hpos, hwrap, fun b hb' => ⟨by have := (hb b hb').2; omega, (hb b hb').1⟩⟩
  · rintro ⟨hpos, hwrap, hb⟩
    have hbytes := toNat_histogramBytes hwrap
    obtain ⟨h, hok, hsize⟩ := chainingHistogram_of_fits buckets content
      (by rw [hbytes, clearedBytes]; omega)
      fun b hb' => ⟨(hb b hb').2, by have := (hb b hb').1; omega⟩
    exact ⟨h, hok, by rw [printHistogram, printLoop_ok_iff, hsize, hbytes]⟩

/-! ## Section 6: A clean block -/

/-- Summed over the depths below `m`, the counts give back every bucket when
    every chain is shorter than `m`: each bucket is counted once. -/
theorem sum_depthCount (buckets : Nat → CacheLine) {m : Nat} :
    ∀ n, (∀ b < n, (buckets b).length < m) → ∑ d ∈ Finset.range m, depthCount buckets n d = n
  | 0, _ => by simp [depthCount]
  | n + 1, h => by
    rw [Finset.sum_congr rfl fun d _ => depthCount_succ buckets n d, Finset.sum_add_distrib,
      sum_depthCount buckets n fun b hb => h b (by omega), Finset.sum_ite_eq,
      if_pos (Finset.mem_range.mpr (h n (by omega)))]

/-- With a block whose counters `1` to `nlines - 1` happen to hold zero,
    the depth loop leaves in each counter `d < nlines` the number of buckets
    of depth `d`; the counters add up to `nlines`, each bucket counted once;
    and the print loop prints a line for each depth that some bucket has. -/
theorem chainingHistogram_clean_block {nlines : UInt64} (buckets : Nat → CacheLine)
    (content : Nat → UInt8) (hpos : 1 ≤ nlines.toNat) (hwrap : nlines.toNat < 2 ^ 61)
    (hdepth : ∀ b < nlines.toNat, (buckets b).length < nlines.toNat ∧ (buckets b).length ≤ intMax)
    (hclean : ∀ d, 1 ≤ d → d < nlines.toNat → (xmalloc 0 content).word d = 0) :
    ∃ h, chainingHistogram nlines buckets content = .ok h ∧
      (∀ d < nlines.toNat, (h.word d).toNat = depthCount buckets nlines.toNat d) ∧
      ∑ d ∈ Finset.range nlines.toNat, (h.word d).toNat = nlines.toNat ∧
      printHistogram nlines h = .ok (histogramLines nlines
        (fun d => UInt64.ofNat (depthCount buckets nlines.toNat d)) nlines.toNat) := by
  obtain ⟨h, hok, hsize, h0, hword⟩ := chainingHistogram_counts buckets content hpos hwrap hdepth
  have hexact : ∀ d < nlines.toNat, h.word d = UInt64.ofNat (depthCount buckets nlines.toNat d) := by
    intro d hd
    rcases Nat.eq_zero_or_pos d with rfl | hd0
    · rw [h0, depthCount_zero_depth]
      rfl
    · rw [hword d hd0, hclean d hd0 hd, zero_add64]
  have hcount : ∀ d < nlines.toNat, (h.word d).toNat = depthCount buckets nlines.toNat d :=
    fun d hd => by
      rw [hexact d hd, toNat_ofNat_of_lt64]
      have := depthCount_le buckets nlines.toNat d
      omega
  refine ⟨h, hok, hcount, ?_, ?_⟩
  · rw [Finset.sum_congr rfl fun d hd => hcount d (Finset.mem_range.mp hd)]
    exact sum_depthCount buckets nlines.toNat fun b hb => (hdepth b hb).1
  · rw [printHistogram, printLoop_ok _ _ _ (by omega), histogramLines_congr hexact]

/-- Three lines whose first bucket chains a second cache line, in a block
    of zeros: one bucket at depth 2 and two at depth 1. -/
theorem chainingHistogram_clean_block_three_lines :
    1 ≤ (3 : UInt64).toNat ∧ (3 : UInt64).toNat < 2 ^ 61 ∧
      (∀ b < (3 : UInt64).toNat,
        (if b = 0 then CacheLine.chained .unchained else .unchained).length < (3 : UInt64).toNat ∧
          (if b = 0 then CacheLine.chained .unchained else .unchained).length ≤ intMax) ∧
      (∀ d, 1 ≤ d → d < (3 : UInt64).toNat → (xmalloc 0 fun _ => 0).word d = 0) ∧
      ∃ h, chainingHistogram 3 (fun b => if b = 0 then .chained .unchained else .unchained)
          (fun _ => 0) = .ok h ∧
        (∀ d < (3 : UInt64).toNat, (h.word d).toNat = depthCount
          (fun b => if b = 0 then .chained .unchained else .unchained) (3 : UInt64).toNat d) ∧
        ∑ d ∈ Finset.range (3 : UInt64).toNat, (h.word d).toNat = (3 : UInt64).toNat ∧
        printHistogram 3 h = .ok (histogramLines 3 (fun d => UInt64.ofNat (depthCount
          (fun b => if b = 0 then .chained .unchained else .unchained) (3 : UInt64).toNat d))
          (3 : UInt64).toNat) :=
  have hdepth : ∀ b < (3 : UInt64).toNat,
      (if b = 0 then CacheLine.chained .unchained else .unchained).length < (3 : UInt64).toNat ∧
        (if b = 0 then CacheLine.chained .unchained else .unchained).length ≤ intMax := by
    decide
  have hclean : ∀ d, 1 ≤ d → d < (3 : UInt64).toNat → (xmalloc 0 fun _ => 0).word d = 0 :=
    fun _ _ _ => by simp [Buffer.word, Buffer.read, xmalloc, ofLittleEndian]
  ⟨by decide, by decide, hdepth, hclean,
    chainingHistogram_clean_block _ _ (by decide) (by decide) hdepth hclean⟩

end RAMCloud
