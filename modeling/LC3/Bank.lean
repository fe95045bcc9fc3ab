import LC3.Word

/-!
# Banks of cells

A **bank** has one cell for every address of `n` bits. Memory is a bank of words with 16 address
bits, the register file one with three. It is a perfect binary tree, branching on the address bits
from the highest down, so a cell is read and written in `n` steps, a freshly cleared bank shares all
its subtrees, and two banks that agree on every address are equal.

* `get_set` — writing a cell changes that cell and no other.
* `ext` — a bank is determined by its cells.
* `toList` — the cells in ascending order of address.
-/

namespace LC3

/-- One cell of type `α` for each address of `n` bits. -/
inductive Bank (α : Type) : Nat → Type
  /-- The only cell, at the address without bits. -/
  | cell (value : α) : Bank α 0
  /-- The cells whose highest address bit is clear, and those where it is set. -/
  | split {n : Nat} (low high : Bank α n) : Bank α (n + 1)
deriving DecidableEq

namespace Bank

variable {α : Type} {n : Nat}

/-- A bank with the same value in every cell. -/
def replicate (value : α) : (n : Nat) → Bank α n
  | 0 => cell value
  | n + 1 =>
    let half := replicate value n
    split half half

/-- The value of the cell that the lowest `n` bits of a number lead to. -/
def find : {n : Nat} → Bank α n → Nat → α
  | _, cell value, _ => value
  | n + 1, split low high, i => if i.testBit n then high.find i else low.find i

/-- The bank with the cell replaced that the lowest `n` bits of a number lead to. -/
def put : {n : Nat} → Bank α n → Nat → α → Bank α n
  | _, cell _, _, value => cell value
  | n + 1, split low high, i, value =>
    if i.testBit n then split low (high.put i value) else split (low.put i value) high

/-- The value of the cell at an address. -/
def get (bank : Bank α n) (a : BitVec n) : α := bank.find a.toNat

/-- The bank with the cell at an address replaced. -/
def set (bank : Bank α n) (a : BitVec n) (value : α) : Bank α n := bank.put a.toNat value

/-- All cells, in ascending order of address. -/
def toList : {n : Nat} → Bank α n → List α
  | _, cell value => [value]
  | _, split low high => low.toList ++ high.toList

/-- The number of cells whose value satisfies a test. -/
def count (p : α → Bool) : {n : Nat} → Bank α n → Nat
  | _, cell value => if p value then 1 else 0
  | _, split low high => low.count p + high.count p

/-! ### Laws -/

/-- A cell depends on the bits that count, and on no others. -/
private theorem find_congr (bank : Bank α n) {i j : Nat}
    (h : ∀ k < n, i.testBit k = j.testBit k) : bank.find i = bank.find j := by
  induction bank with
  | cell value => rfl
  | @split n low high ihl ihh =>
    have hlower : ∀ k < n, i.testBit k = j.testBit k := fun k hk => h k (Nat.lt_succ_of_lt hk)
    have hbit := h n (Nat.lt_succ_self n)
    simp only [find, hbit, ihl hlower, ihh hlower]

private theorem find_put_self (bank : Bank α n) {i j : Nat}
    (h : ∀ k < n, j.testBit k = i.testBit k) (value : α) : (bank.put i value).find j = value := by
  induction bank with
  | cell old => rfl
  | @split n low high ihl ihh =>
    have hlower : ∀ k < n, j.testBit k = i.testBit k := fun k hk => h k (Nat.lt_succ_of_lt hk)
    have hbit := h n (Nat.lt_succ_self n)
    cases hi : i.testBit n <;> simp [put, find, hi, hbit, ihl hlower, ihh hlower]

private theorem find_put_of_ne (bank : Bank α n) {i j k : Nat} (hk : k < n)
    (h : j.testBit k ≠ i.testBit k) (value : α) : (bank.put i value).find j = bank.find j := by
  induction bank with
  | cell old => exact absurd hk (Nat.not_lt_zero k)
  | @split n low high ihl ihh =>
    by_cases hn : k = n
    · -- the two numbers part here
      subst hn
      cases hi : i.testBit k <;> cases hj : j.testBit k <;> simp_all [put, find]
    · have hlt : k < n := by omega
      cases hi : i.testBit n <;> simp [put, find, hi, ihl hlt, ihh hlt]

private theorem find_replicate (value : α) (i : Nat) : (replicate value n).find i = value := by
  induction n with
  | zero => rfl
  | succ n ih => simp [replicate, find, ih]

@[simp] theorem get_replicate (value : α) (a : BitVec n) : (replicate value n).get a = value :=
  find_replicate value a.toNat

/-- Writing a cell changes that cell and no other. -/
theorem get_set (bank : Bank α n) (a b : BitVec n) (value : α) :
    (bank.set a value).get b = if b = a then value else bank.get b := by
  by_cases h : ∀ k < n, b.toNat.testBit k = a.toNat.testBit k
  · have heq : b = a := BitVec.eq_of_getLsbD_eq h
    rw [if_pos heq]
    exact find_put_self bank h value
  · have hne : b ≠ a := fun heq => h fun k _ => by rw [heq]
    rw [if_neg hne]
    simp only [Classical.not_forall] at h
    obtain ⟨k, hk, hbit⟩ := h
    exact find_put_of_ne bank hk hbit value

@[simp] theorem get_set_self (bank : Bank α n) (a : BitVec n) (value : α) :
    (bank.set a value).get a = value := by
  simp [get_set]

theorem get_set_of_ne (bank : Bank α n) {a b : BitVec n} (h : b ≠ a) (value : α) :
    (bank.set a value).get b = bank.get b := by
  simp [get_set, h]

private theorem ext_find {bank other : Bank α n} (h : ∀ i, bank.find i = other.find i) :
    bank = other := by
  induction bank with
  | cell value =>
    cases other with
    | cell value' => exact congrArg cell (h 0)
  | @split n low high ihl ihh =>
    cases other with
    | split low' high' =>
      -- a cell of a half is one of the whole bank, with the highest address bit clear or set
      have hl : low = low' := ihl fun i => by
        have hbit : (i % 2 ^ n).testBit n = false := by simp [Nat.testBit_mod_two_pow]
        have hsame : ∀ k < n, (i % 2 ^ n).testBit k = i.testBit k := fun k hk => by
          simp [Nat.testBit_mod_two_pow, hk]
        have := h (i % 2 ^ n)
        simpa [find, hbit, find_congr low hsame, find_congr low' hsame] using this
      have hh : high = high' := ihh fun i => by
        have hbit : (2 ^ n + i % 2 ^ n).testBit n = true := by
          rw [Nat.testBit_two_pow_add_eq]
          simp [Nat.testBit_mod_two_pow]
        have hsame : ∀ k < n, (2 ^ n + i % 2 ^ n).testBit k = i.testBit k := fun k hk => by
          rw [Nat.testBit_two_pow_add_gt hk]
          simp [Nat.testBit_mod_two_pow, hk]
        have := h (2 ^ n + i % 2 ^ n)
        simpa [find, hbit, find_congr high hsame, find_congr high' hsame] using this
      rw [hl, hh]

/-- A bank is determined by its cells. -/
theorem ext {bank other : Bank α n} (h : ∀ a, bank.get a = other.get a) : bank = other :=
  ext_find fun i => by
    have hsame : ∀ k < n, (BitVec.ofNat n i).toNat.testBit k = i.testBit k := fun k hk => by
      simp [hk]
    have := h (BitVec.ofNat n i)
    simpa only [get, find_congr bank hsame, find_congr other hsame] using this

/-- Writing what a cell already holds changes nothing. -/
@[simp] theorem set_get_self (bank : Bank α n) (a : BitVec n) : bank.set a (bank.get a) = bank := by
  apply ext
  intro b
  rw [get_set]
  split
  · next h => rw [h]
  · rfl

@[simp] theorem set_set_self (bank : Bank α n) (a : BitVec n) (v w : α) :
    (bank.set a v).set a w = bank.set a w := by
  apply ext
  intro b
  simp only [get_set]
  split <;> rfl

@[simp] theorem length_toList (bank : Bank α n) : bank.toList.length = 1 <<< n := by
  induction bank with
  | cell value => rfl
  | split low high ihl ihh =>
    rw [toList, List.length_append, ihl, ihh, Nat.shiftLeft_succ, Nat.two_mul]

theorem count_eq_countP (p : α → Bool) (bank : Bank α n) :
    bank.count p = bank.toList.countP p := by
  induction bank with
  | cell value => simp [count, toList, List.countP_cons]
  | split low high ihl ihh => simp [count, toList, ihl, ihh, List.countP_append]

end Bank

end LC3
