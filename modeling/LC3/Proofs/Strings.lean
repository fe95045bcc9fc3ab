import LC3.Proofs.Cycle
import Mathlib.Data.Nat.Notation

/-!
# Every string ends

The two routines that print a string read memory from the address in R0 on until a word is zero.
Nothing counts the reads, the address wraps, and memory need not hold a zero at all. What ends the
string is the keyboard: on every lap over all addresses the status register is read, and that read
either takes a character away or returns zero. With `n` characters and nothing sent meanwhile there
are at most `n` full laps and one that ends at the status register.

The loop is described here without the function that runs it. `Memory.sweep` is the memory after a
number of reads of successive addresses, `Memory.swept` the word that a read returns, and
`Memory.EndsAt m a k` says that read number `k` returns the first zero.

* `exists_endsAt` — there is such a `k`, and it is bounded.
* `EndsAt.readString_eq` — the string is what the reads before it have returned.
* `strings_end` — both, for the two routines, with what a read of the status register does.

The bound is lexicographic, written as one number (`Memory.stringBound`): the characters left, and
for the same number of characters the distance to the status register.
-/

namespace LC3

namespace Memory

/-! ### Successive reads -/

/-- The memory behind the first reads of successive addresses. -/
def sweep (m : Memory) (a : Word) : ℕ → Memory
  | 0 => m
  | k + 1 => ((m.sweep a k).read (a + BitVec.ofNat 16 k)).2

/-- What read number `k` of successive addresses returns. -/
def swept (m : Memory) (a : Word) (k : ℕ) : Word :=
  ((m.sweep a k).read (a + BitVec.ofNat 16 k)).1

variable (m : Memory) (a : Word)

/-- Read number `k + 1` from an address on is read number `k` from the next address on. -/
private theorem add_ofNat_succ (k : ℕ) :
    a + BitVec.ofNat 16 (k + 1) = a + 1 + BitVec.ofNat 16 k := by
  rw [BitVec.ofNat_add, BitVec.add_assoc, BitVec.add_comm (BitVec.ofNat 16 k)]
  rfl

theorem sweep_succ (k : ℕ) : m.sweep a (k + 1) = (m.read a).2.sweep (a + 1) k := by
  induction k with
  | zero =>
    change (m.read (a + 0#16)).2 = (m.read a).2
    rw [BitVec.add_zero]
  | succ k ih =>
    change ((m.sweep a (k + 1)).read (a + BitVec.ofNat 16 (k + 1))).2 = _
    rw [ih, add_ofNat_succ]
    rfl

theorem swept_zero : m.swept a 0 = (m.read a).1 := by
  change (m.read (a + 0#16)).1 = _
  rw [BitVec.add_zero]

theorem swept_succ (k : ℕ) : m.swept a (k + 1) = (m.read a).2.swept (a + 1) k := by
  unfold swept
  rw [sweep_succ, add_ofNat_succ]

/-- Away from the status register a sweep only looks. -/
theorem sweep_eq_self {k : ℕ} (h : ∀ j < k, a + BitVec.ofNat 16 j ≠ statusAddress) :
    m.sweep a k = m := by
  induction k with
  | zero => rfl
  | succ k ih =>
    have hk := ih fun j hj => h j (Nat.lt_succ_of_lt hj)
    change ((m.sweep a k).read (a + BitVec.ofNat 16 k)).2 = m
    rw [hk, read_of_ne m (h k (Nat.lt_succ_self k))]

theorem swept_eq_peek {k : ℕ} (h : ∀ j ≤ k, a + BitVec.ofNat 16 j ≠ statusAddress) :
    m.swept a k = m.peek (a + BitVec.ofNat 16 k) := by
  unfold swept
  rw [sweep_eq_self m a fun j hj => h j (Nat.le_of_lt hj), read_of_ne m (h k (Nat.le_refl k))]

/-- The status register is as far ahead as the difference of addresses says, and no nearer. -/
theorem add_ne_statusAddress {j : ℕ} (hj : j < (statusAddress - a).toNat) :
    a + BitVec.ofNat 16 j ≠ statusAddress := by
  intro h
  rw [← h, BitVec.add_comm, BitVec.add_sub_cancel, BitVec.toNat_ofNat] at hj
  exact absurd hj (Nat.not_lt.2 (Nat.mod_le _ _))

/-! ### The end of a string -/

/-- Read number `k` from an address on returns the first zero. -/
structure EndsAt (k : ℕ) : Prop where
  zero : m.swept a k = 0
  ne_zero : ∀ j < k, m.swept a j ≠ 0

variable {m a}

/-- A string goes on behind a word other than zero. -/
theorem EndsAt.succ {k : ℕ} (h : (m.read a).1 ≠ 0) (hk : (m.read a).2.EndsAt (a + 1) k) :
    m.EndsAt a (k + 1) where
  zero := by rw [swept_succ]; exact hk.zero
  ne_zero j hj := by
    cases j with
    | zero => rwa [swept_zero]
    | succ j =>
      rw [swept_succ]
      exact hk.ne_zero j (Nat.lt_of_succ_lt_succ hj)

theorem EndsAt.tail {k : ℕ} (h : m.EndsAt a (k + 1)) : (m.read a).2.EndsAt (a + 1) k where
  zero := by rw [← swept_succ]; exact h.zero
  ne_zero j hj := by
    rw [← swept_succ]
    exact h.ne_zero (j + 1) (Nat.succ_lt_succ hj)

/-- **Every string ends**, within the bound. -/
theorem exists_endsAt (m : Memory) (a : Word) : ∃ k, m.EndsAt a k ∧ k ≤ m.stringBound a := by
  induction hn : m.stringBound a using Nat.strongRecOn generalizing m a with
  | ind n ih =>
    by_cases h : (m.read a).1 = 0
    · refine ⟨0, ⟨?_, fun j hj => absurd hj (Nat.not_lt_zero j)⟩, Nat.zero_le n⟩
      rw [swept_zero, h]
    · -- the rest of the string has a smaller bound
      have hlt := stringBound_read_lt m a h
      rw [hn] at hlt
      obtain ⟨k, hk, hle⟩ := ih _ hlt (m.read a).2 (a + 1) rfl
      exact ⟨k + 1, hk.succ h, Nat.lt_of_le_of_lt hle hlt⟩

/-- A string consists of what the reads before its end have returned. -/
theorem EndsAt.readString_eq {k : ℕ} (h : m.EndsAt a k) :
    m.readString a = ((List.range k).map (m.swept a), m.sweep a (k + 1)) := by
  induction k generalizing m a with
  | zero =>
    have hzero := h.zero
    rw [swept_zero] at hzero
    rw [readString_eq, if_pos hzero, sweep_succ]
    rfl
  | succ k ih =>
    have hne := h.ne_zero 0 (Nat.zero_lt_succ k)
    rw [swept_zero] at hne
    have hmap : (List.range (k + 1)).map (m.swept a) =
        (m.read a).1 :: (List.range k).map ((m.read a).2.swept (a + 1)) := by
      rw [List.range_succ_eq_map, List.map_cons, List.map_map, swept_zero]
      exact congrArg _ (List.map_congr_left fun j _ => swept_succ m a j)
    rw [readString_eq, if_neg hne, ih h.tail, hmap, ← sweep_succ]

/-! ### The status register -/

/-- A look at the keyboard that finds a character, in all its effects. -/
theorem read_status_of_next? (ha : a = statusAddress) {ch : Word} {rest : Keyboard}
    (hn : m.keyboard.next? = some (ch, rest)) :
    (m.read a).1 = readyStatus ∧
      (∀ b, (m.read a).2.peek b =
        if b = statusAddress then readyStatus else if b = dataAddress then ch else m.peek b) ∧
      (m.read a).2.keyboard = rest := by
  rw [ha, read_statusAddress]
  refine ⟨?_, fun b => ?_, ?_⟩
  · change m.refresh.peek statusAddress = _
    rw [peek_refresh, hn]
    exact if_pos rfl
  · change m.refresh.peek b = _
    rw [peek_refresh, hn]
  · change m.refresh.keyboard = _
    rw [keyboard_refresh, hn]

/-- And one that finds none. -/
theorem read_status_of_none (ha : a = statusAddress) (hn : m.keyboard.next? = none) :
    (m.read a).1 = 0 ∧
      (∀ b, (m.read a).2.peek b = if b = statusAddress then 0 else m.peek b) ∧
      (m.read a).2.keyboard = m.keyboard := by
  rw [ha, read_statusAddress]
  refine ⟨?_, fun b => ?_, ?_⟩
  · change m.refresh.peek statusAddress = _
    rw [peek_refresh, hn]
    exact if_pos rfl
  · change m.refresh.peek b = _
    rw [peek_refresh, hn]
  · change m.refresh.keyboard = _
    rw [keyboard_refresh, hn]

/-- A read of the status register takes a character away or returns zero. -/
theorem read_status_cases (m : Memory) :
    (m.read statusAddress).1 = readyStatus ∧
        m.keyboard.available.length =
          (m.read statusAddress).2.keyboard.available.length + 1 ∨
      (m.read statusAddress).1 = 0 ∧ m.keyboard.available = [] := by
  cases hn : m.keyboard.next? with
  | none => exact .inr ⟨(read_status_of_none rfl hn).1, (Keyboard.next?_eq_none_iff _).1 hn⟩
  | some next =>
    obtain ⟨c, rest⟩ := next
    obtain ⟨hword, -, hrest⟩ := read_status_of_next? rfl hn
    refine .inl ⟨hword, ?_⟩
    rw [hrest, (Keyboard.available_of_next? hn).1, List.length_cons]

end Memory

/-! ### The routines -/

namespace TrapRoutine

variable {σ : Type} [ByteSink σ]

open Memory

/-- **The routines for strings come to an end.** They make `k + 1` reads, all but the last of which
return a word of the string. The subtraction is one of words, hence modulo `2 ^ 16`. -/
theorem strings_end (h : Hardware) (s : σ) :
    let m := h.memory
    let a := h.registers.get 0
    let n := m.keyboard.available.length
    ∃ k, k + 1 ≤ ((0xFE00 : Word) - a).toNat + 65536 * n + 1 ∧
      (m.swept a k = 0 ∧ ∀ j < k, m.swept a j ≠ 0) ∧
      puts.begin h s = emit (((List.range k).map (m.swept a)).flatMap plainBytes) .proceed
        { h with memory := m.sweep a (k + 1) } s ∧
      putsp.begin h s = emit (((List.range k).map (m.swept a)).flatMap packedBytes) .proceed
        { h with memory := m.sweep a (k + 1) } s ∧
      (∀ j ≤ k, a + BitVec.ofNat 16 j = 0xFE00 →
        (m.sweep a j).keyboard.available.length =
            (m.sweep a (j + 1)).keyboard.available.length + 1 ∨
          m.swept a j = 0) ∧
      (n = 0 → ∀ j < k, j < ((0xFE00 : Word) - a).toNat ∧
        m.swept a j = m.peek (a + BitVec.ofNat 16 j)) := by
  intro m a n
  obtain ⟨k, hk, hle⟩ := exists_endsAt m a
  have hbound : m.stringBound a = ((0xFE00 : Word) - a).toNat + 65536 * n := Nat.add_comm _ _
  -- both routines print the same words, each in its own way
  have hemit (bytesOf : Word → List Byte) : emitString bytesOf h s =
      emit (((List.range k).map (m.swept a)).flatMap bytesOf) .proceed
        { h with memory := m.sweep a (k + 1) } s := by
    rw [emitString_eq, hk.readString_eq]
  refine ⟨k, ?_, ⟨hk.zero, hk.ne_zero⟩, hemit plainBytes, hemit packedBytes, ?_, ?_⟩
  · rw [← hbound]
    exact Nat.succ_le_succ hle
  · -- a read at the status register is a read of the status register
    intro j _ hj
    change _ = ((m.sweep a j).read (a + BitVec.ofNat 16 j)).2.keyboard.available.length + 1 ∨
      ((m.sweep a j).read (a + BitVec.ofNat 16 j)).1 = 0
    rw [hj]
    exact (read_status_cases (m.sweep a j)).imp And.right And.left
  · intro hn j hj
    -- without characters the bound is the distance to the status register
    have hlt : j < ((0xFE00 : Word) - a).toNat := by
      rw [hbound, hn, Nat.mul_zero, Nat.add_zero] at hle
      exact Nat.lt_of_lt_of_le hj hle
    refine ⟨hlt, swept_eq_peek m a fun i hi => add_ne_statusAddress a ?_⟩
    exact Nat.lt_of_le_of_lt hi hlt

end TrapRoutine

end LC3
