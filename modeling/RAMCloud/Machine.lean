import Mathlib.Data.List.OfFn
import Mathlib.Tactic.Ring

/-! # Machine words, bytes and heap buffers

    The benchmark runs on a 64-bit little-endian machine: every `uint64_t` it
    handles is also a string of eight bytes, once as the key bytes behind
    `Key(0, &i, sizeof(i))` and once as a counter of the histogram buffer
    that `Memory::xmalloc` returns and `memset` clears.

    This file fixes that machine layer:
    - `Fault`, the ways a run of the benchmark stops before its end;
    - the little-endian bytes of a `uint64_t` and their round trip;
    - `Buffer`, an uninitialised heap block with `memset`, and `load` and
      `store` of `uint64_t` elements, each failing with `outOfBounds` when it
      would touch a byte outside the block.
-/

namespace RAMCloud

/-! ## Section 1: Faults -/

/-- How a run stops early: a failed `assert` (with the text of its
    expression), an integer division by zero, an access outside a heap block,
    `int` overflow, a `double` to `uint64_t` conversion whose value does not
    fit, a dereference of something that is not an object, or an allocation
    that fails. -/
inductive Fault where
  | assertionFailed (expression : String)
  | divisionByZero
  | outOfBounds
  | signedOverflow
  | invalidConversion
  | invalidPointer
  | outOfMemory
  deriving DecidableEq, Repr

@[simp] theorem pure_eq_ok {α : Type} (a : α) : (pure a : Except Fault α) = .ok a := rfl

@[simp] theorem error_bind {α β : Type} (e : Fault) (f : α → Except Fault β) :
    (Except.error e >>= f) = .error e := rfl

@[simp] theorem ok_bind {α β : Type} (a : α) (f : α → Except Fault β) :
    (Except.ok a >>= f : Except Fault β) = f a := rfl

/-- A sequenced computation that fails failed in its first part or, after
    it, in its second. -/
theorem bind_eq_error {α β : Type} {x : Except Fault α} {f : α → Except Fault β} {e : Fault}
    (h : x >>= f = .error e) : x = .error e ∨ ∃ a, x = .ok a ∧ f a = .error e := by
  cases x with
  | error e' => cases h; exact .inl rfl
  | ok a => exact .inr ⟨a, rfl, h⟩

/-- A sequenced computation that succeeds succeeded in both parts. -/
theorem bind_eq_ok {α β : Type} {x : Except Fault α} {f : α → Except Fault β} {b : β}
    (h : x >>= f = .ok b) : ∃ a, x = .ok a ∧ f a = .ok b := by
  cases x with
  | error e => cases h
  | ok a => exact ⟨a, rfl, h⟩

/-- A sequenced computation succeeds exactly when its first part does and
    the second part, after it, does too. -/
theorem exists_bind_eq_ok {α β : Type} {x : Except Fault α} {f : α → Except Fault β} :
    (∃ b, x >>= f = .ok b) ↔ ∃ a, x = .ok a ∧ ∃ b, f a = .ok b :=
  ⟨fun ⟨b, h⟩ => (bind_eq_ok h).imp fun _ ⟨ha, hf⟩ => ⟨ha, b, hf⟩,
    fun ⟨_, ha, b, hf⟩ => ⟨b, by rw [ha]; exact hf⟩⟩

/-- The unsigned integer division `a / b` of C++, which traps on `b = 0`. -/
def divide (a b : UInt64) : Except Fault UInt64 :=
  if b = 0 then .error .divisionByZero else .ok (a / b)

theorem divide_ok {a b : UInt64} (h : b ≠ 0) : divide a b = .ok (a / b) := by
  simp [divide, h]

/-! ## Section 2: `uint64_t` arithmetic -/

theorem toNat_add64 (a b : UInt64) : (a + b).toNat = (a.toNat + b.toNat) % 2 ^ 64 :=
  BitVec.toNat_add ..

theorem toNat_mul64 (a b : UInt64) : (a * b).toNat = a.toNat * b.toNat % 2 ^ 64 :=
  BitVec.toNat_mul ..

theorem toNat_ofNat64 (n : Nat) : (UInt64.ofNat n).toNat = n % 2 ^ 64 :=
  BitVec.toNat_ofNat ..

theorem toNat_ofNat_of_lt64 {n : Nat} (h : n < 2 ^ 64) : (UInt64.ofNat n).toNat = n := by
  rw [toNat_ofNat64, Nat.mod_eq_of_lt h]

theorem toNat_lt64 (a : UInt64) : a.toNat < 2 ^ 64 := a.toNat_lt_size

@[simp] theorem add_zero64 (a : UInt64) : a + 0 = a :=
  UInt64.toNat.inj (by rw [toNat_add64]; exact Nat.mod_eq_of_lt (toNat_lt64 a))

@[simp] theorem zero_add64 (a : UInt64) : 0 + a = a :=
  UInt64.toNat.inj (by rw [toNat_add64, UInt64.toNat_zero, Nat.zero_add, Nat.mod_eq_of_lt (toNat_lt64 a)])

@[simp] theorem toNat_one64 : (1 : UInt64).toNat = 1 := rfl

/-- A counter holding `a + c` that is incremented holds `a + (c + 1)`. -/
theorem add_ofNat_succ64 (a : UInt64) (c : Nat) :
    a + UInt64.ofNat c + 1 = a + UInt64.ofNat (c + 1) := by
  apply UInt64.toNat.inj
  simp only [toNat_add64, toNat_ofNat64, toNat_one64]
  omega

@[simp] theorem ofNat_toNat64 (a : UInt64) : UInt64.ofNat a.toNat = a :=
  UInt64.toNat.inj (by rw [toNat_ofNat64, Nat.mod_eq_of_lt (toNat_lt64 a)])

theorem lt_iff_toNat_lt64 {a b : UInt64} : a < b ↔ a.toNat < b.toNat := .rfl

theorem ofNat_inj64 {m n : Nat} (hm : m < 2 ^ 64) (hn : n < 2 ^ 64)
    (h : UInt64.ofNat m = UInt64.ofNat n) : m = n := by
  have := congrArg UInt64.toNat h
  rwa [toNat_ofNat64, toNat_ofNat64, Nat.mod_eq_of_lt hm, Nat.mod_eq_of_lt hn] at this

/-! ## Section 3: Little-endian bytes -/

/-- The `w` low bytes of `n`, least significant first. -/
def littleEndian : Nat → Nat → List UInt8
  | 0, _ => []
  | w + 1, n => UInt8.ofNat n :: littleEndian w (n / 256)

/-- The number whose little-endian bytes are `bytes`. -/
def ofLittleEndian : List UInt8 → Nat
  | [] => 0
  | b :: bytes => b.toNat + 256 * ofLittleEndian bytes

@[simp] theorem length_littleEndian (w n : Nat) : (littleEndian w n).length = w := by
  induction w generalizing n with
  | zero => rfl
  | succ w ih => simp [littleEndian, ih]

theorem ofLittleEndian_littleEndian (w n : Nat) :
    ofLittleEndian (littleEndian w n) = n % 256 ^ w := by
  induction w generalizing n with
  | zero => simp [littleEndian, ofLittleEndian, Nat.mod_one]
  | succ w ih =>
    have hb : (UInt8.ofNat n).toNat = n % 256 := BitVec.toNat_ofNat ..
    rw [littleEndian, ofLittleEndian, ih, hb, Nat.pow_succ', Nat.mod_mul]

/-- The bytes of a `uint64_t` in memory. -/
def uint64Bytes (v : UInt64) : List UInt8 := littleEndian 8 v.toNat

@[simp] theorem length_uint64Bytes (v : UInt64) : (uint64Bytes v).length = 8 :=
  length_littleEndian 8 _

@[simp] theorem ofLittleEndian_uint64Bytes (v : UInt64) :
    ofLittleEndian (uint64Bytes v) = v.toNat := by
  rw [uint64Bytes, ofLittleEndian_littleEndian]
  exact Nat.mod_eq_of_lt (toNat_lt64 v)

/-- Distinct integers have distinct bytes. -/
theorem uint64Bytes_inj {a b : UInt64} : uint64Bytes a = uint64Bytes b ↔ a = b :=
  ⟨fun h => UInt64.toNat.inj (by
    rw [← ofLittleEndian_uint64Bytes a, h, ofLittleEndian_uint64Bytes]), congrArg _⟩

/-! ## Section 4: Heap buffers -/

/-- A heap block of `size` bytes. `Memory::xmalloc` does not clear what it
    returns, so `bytes` starts as whatever the block held before. -/
structure Buffer where
  size : Nat
  bytes : Nat → UInt8

namespace Buffer

/-- The `count` bytes of `b` from `offset` on. -/
def read (b : Buffer) (offset : Nat) : Nat → List UInt8
  | 0 => []
  | count + 1 => b.bytes offset :: b.read (offset + 1) count

theorem read_eq_ofFn (b : Buffer) (offset count : Nat) :
    b.read offset count = List.ofFn fun k : Fin count => b.bytes (offset + k) := by
  induction count generalizing offset with
  | zero => simp [read]
  | succ count ih => simp [read, ih, List.ofFn_succ, Nat.add_assoc, Nat.add_comm 1]

/-- `b` with `data` written from `offset` on. -/
def write (b : Buffer) (offset : Nat) (data : List UInt8) : Buffer :=
  { b with bytes := fun k =>
      if offset ≤ k ∧ k < offset + data.length then data.getD (k - offset) 0 else b.bytes k }

/-- `b` with its first `count` bytes set to `value`. -/
def fill (b : Buffer) (value : UInt8) (count : Nat) : Buffer :=
  { b with bytes := fun k => if k < count then value else b.bytes k }

/-- The `uint64_t` element `index` of `b`: bytes `8 * index` to `8 * index + 7`. -/
def word (b : Buffer) (index : Nat) : UInt64 :=
  UInt64.ofNat (ofLittleEndian (b.read (8 * index) 8))

/-- `b` with `v` stored as its element `index`. -/
def setWord (b : Buffer) (index : Nat) (v : UInt64) : Buffer :=
  b.write (8 * index) (uint64Bytes v)

@[simp] theorem size_fill (b : Buffer) (value : UInt8) (count : Nat) :
    (b.fill value count).size = b.size := rfl

@[simp] theorem size_setWord (b : Buffer) (index : Nat) (v : UInt64) :
    (b.setWord index v).size = b.size := rfl

theorem read_write_self (b : Buffer) (offset : Nat) (data : List UInt8) :
    (b.write offset data).read offset data.length = data := by
  rw [read_eq_ofFn]
  apply List.ext_get (by simp)
  intro k hk _
  have hk' : k < data.length := by simpa using hk
  simp [write, hk']

/-- Bytes outside the written window keep their value. -/
theorem read_write_frame (b : Buffer) {offset offset' count : Nat} (data : List UInt8)
    (h : offset' + count ≤ offset ∨ offset + data.length ≤ offset') :
    (b.write offset data).read offset' count = b.read offset' count := by
  simp only [read_eq_ofFn, write]
  congr 1
  funext k
  rw [if_neg (by omega)]

theorem word_setWord_self (b : Buffer) (index : Nat) (v : UInt64) :
    (b.setWord index v).word index = v := by
  simpa [word, setWord] using congrArg (fun l => UInt64.ofNat (ofLittleEndian l))
    (read_write_self b (8 * index) (uint64Bytes v))

theorem word_setWord_ne (b : Buffer) {index index' : Nat} (v : UInt64) (h : index' ≠ index) :
    (b.setWord index v).word index' = b.word index' := by
  simp only [word, setWord]
  rw [read_write_frame b _ (by simp; omega)]

/-- Clearing the first `count` bytes zeroes every element that lies inside them. -/
theorem word_fill_zero (b : Buffer) {count index : Nat} (h : 8 * index + 8 ≤ count) :
    (b.fill 0 count).word index = 0 := by
  have hread : (b.fill 0 count).read (8 * index) 8 = List.ofFn fun _ : Fin 8 => 0 := by
    simp only [read_eq_ofFn, fill]
    congr 1
    funext k
    rw [if_pos (by omega)]
  rw [word, hread]
  simp [List.ofFn_succ, ofLittleEndian]

/-- Elements past the first `count` bytes keep their value. -/
theorem word_fill_frame (b : Buffer) (value : UInt8) {count index : Nat} (h : count ≤ 8 * index) :
    (b.fill value count).word index = b.word index := by
  simp only [word, read_eq_ofFn, fill]
  congr 3
  funext k
  rw [if_neg (by omega)]

/-- Reading element `index` of `b` as a `uint64_t`. -/
def load (b : Buffer) (index : Nat) : Except Fault UInt64 :=
  if 8 * index + 8 ≤ b.size then .ok (b.word index) else .error .outOfBounds

/-- Writing `v` to element `index` of `b`. -/
def store (b : Buffer) (index : Nat) (v : UInt64) : Except Fault Buffer :=
  if 8 * index + 8 ≤ b.size then .ok (b.setWord index v) else .error .outOfBounds

theorem load_ok {b : Buffer} {index : Nat} (h : 8 * index + 8 ≤ b.size) :
    b.load index = .ok (b.word index) := if_pos h

theorem load_outOfBounds {b : Buffer} {index : Nat} (h : b.size < 8 * index + 8) :
    b.load index = .error .outOfBounds := if_neg (by omega)

theorem load_fault {b : Buffer} {index : Nat} {e : Fault} (h : b.load index = .error e) :
    e = .outOfBounds := by
  unfold load at h
  split at h <;> cases h
  rfl

theorem store_ok {b : Buffer} {index : Nat} (v : UInt64) (h : 8 * index + 8 ≤ b.size) :
    b.store index v = .ok (b.setWord index v) := if_pos h

end Buffer

/-- An allocation the program does not check: when the memory is not
    served, `new` throws `std::bad_alloc` and `Memory::xmalloc` ends the
    program, and either way the run stops there. -/
def allocation (served : Bool) : Except Fault Unit :=
  if served then .ok () else .error .outOfMemory

@[simp] theorem allocation_true : allocation true = .ok () := rfl

@[simp] theorem allocation_false : allocation false = .error .outOfMemory := rfl

theorem allocation_fault {served : Bool} {e : Fault} (h : allocation served = .error e) :
    e = .outOfMemory := by
  cases served <;> cases h
  rfl

/-- `Memory::xmalloc(HERE, size)`, once the allocation is served: a block of
    `size` bytes holding whatever `content` the allocator leaves in it. -/
def xmalloc (size : Nat) (content : Nat → UInt8) : Buffer := ⟨size, content⟩

/-- `memset(b, value, count)`. -/
def memset (b : Buffer) (value : UInt8) (count : Nat) : Except Fault Buffer :=
  if count ≤ b.size then .ok (b.fill value count) else .error .outOfBounds

theorem memset_ok {b : Buffer} (value : UInt8) {count : Nat} (h : count ≤ b.size) :
    memset b value count = .ok (b.fill value count) := if_pos h

theorem memset_fault {b : Buffer} {value : UInt8} {count : Nat} {e : Fault}
    (h : memset b value count = .error e) : e = .outOfBounds := by
  unfold memset at h
  split at h <;> cases h
  rfl

theorem memset_outOfBounds {b : Buffer} (value : UInt8) {count : Nat} (h : b.size < count) :
    memset b value count = .error .outOfBounds := if_neg (by omega)

end RAMCloud
