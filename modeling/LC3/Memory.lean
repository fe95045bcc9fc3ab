import LC3.Bank
import LC3.Keyboard
import LC3.Numeral

/-!
# Memory

Memory holds a word for each of the 65536 addresses. Two of them belong to the keyboard: reading the
**status register** looks for a character, and if one is there moves it into the **data register**
and answers with bit 15 set, otherwise with zero. Whatever a program stored in the status register
is gone by the time it can be read. All other cells are plain, and writing any cell is plain.

* `read_of_ne` — away from the status register, reading is looking.
* `read_status` — what reading the status register does.
* `readString_eq` — a string is its first word and, unless that is zero, the string behind it.

A string ends at its zero word, and it always has one: within every 65536 words it passes the status
register, which answers zero once no character is left. `readString` recurses on that bound.
-/

namespace LC3

/-- The registers of devices that appear as memory cells. -/
inductive MappedRegister
  /-- Tells whether a character is there. -/
  | status
  /-- Holds the character that was found last. -/
  | data
deriving DecidableEq

/-- The address at which a device register appears. -/
def MappedRegister.address : MappedRegister → Word
  | status => 0xFE00
  | data => 0xFE02

/-- The device register at an address, if there is one. -/
def MappedRegister.ofAddress? (a : Word) : Option MappedRegister :=
  if a = status.address then some status
  else if a = data.address then some data
  else none

/-- The memory cells and the keyboard that appears among them. -/
structure Memory where
  /-- The content of every address. -/
  cells : Bank Word 16
  /-- The keyboard behind the status and the data register. -/
  keyboard : Keyboard
deriving DecidableEq

namespace Memory

/-- The address of the status register. -/
abbrev statusAddress : Word := MappedRegister.status.address

/-- The address of the data register. -/
abbrev dataAddress : Word := MappedRegister.data.address

/-- The answer of the status register when a character was found. -/
def readyStatus : Word := 0x8000

/-- Cleared memory. -/
def cleared (keyboard : Keyboard) : Memory := ⟨.replicate 0 16, keyboard⟩

/-- The content of a cell, without the effect that reading it has. -/
def peek (m : Memory) (a : Word) : Word := m.cells.get a

/-- Replaces the content of a cell. -/
def write (m : Memory) (a value : Word) : Memory := { m with cells := m.cells.set a value }

/-- Connects another keyboard; what the former one still held is lost. -/
def connect (m : Memory) (keyboard : Keyboard) : Memory := { m with keyboard := keyboard }

/-- Brings the device registers up to date. -/
def refresh (m : Memory) : Memory :=
  match m.keyboard.next? with
  | some (c, rest) =>
    ⟨(m.cells.set dataAddress c).set statusAddress readyStatus, rest⟩
  | none => m.write statusAddress 0

/-- Reads a word, and brings the device registers up to date if it is the status register. -/
def read (m : Memory) (a : Word) : Word × Memory :=
  if a = statusAddress then (m.refresh.peek a, m.refresh) else (m.peek a, m)

/-- The number of words from an address to the top of memory. -/
def capacityFrom (a : Word) : Nat := 65536 - a.toNat

/-- Writes words from an address on, as many as there is room for below the top. -/
def fill (m : Memory) (a : Word) : List Word → Memory
  | [] => m
  | value :: values =>
    -- the address must not wrap: what is left has no room
    if a = 0xFFFF then m.write a value else (m.write a value).fill (a + 1) values

/-- One line about the content of memory. -/
def describe (m : Memory) : String :=
  let used := m.cells.count (· ≠ 0)
  s!"Memory: {used} non-zero words of 65536"

/-! ### Looking and writing -/

/-- Two memories with the same cells and the same keyboard are equal. -/
theorem ext_peek {m other : Memory} (h : ∀ a, m.peek a = other.peek a)
    (hk : m.keyboard = other.keyboard) : m = other := by
  obtain ⟨cells, keyboard⟩ := m
  obtain ⟨cells', keyboard'⟩ := other
  have : cells = cells' := Bank.ext h
  simp_all

theorem peek_write (m : Memory) (a b value : Word) :
    (m.write a value).peek b = if b = a then value else m.peek b :=
  m.cells.get_set a b value

@[simp] theorem peek_write_self (m : Memory) (a value : Word) :
    (m.write a value).peek a = value := by
  simp [peek_write]

@[simp] theorem keyboard_write (m : Memory) (a value : Word) :
    (m.write a value).keyboard = m.keyboard := rfl

@[simp] theorem peek_cleared (keyboard : Keyboard) (a : Word) :
    (cleared keyboard).peek a = 0 := by
  simp [cleared, peek]

@[simp] theorem peek_connect (m : Memory) (keyboard : Keyboard) (a : Word) :
    (m.connect keyboard).peek a = m.peek a := rfl

@[simp] theorem keyboard_fill (m : Memory) (a : Word) (values : List Word) :
    (m.fill a values).keyboard = m.keyboard := by
  induction values generalizing m a with
  | nil => rfl
  | cons value values ih =>
    unfold fill
    split <;> simp [ih]

/-! ### Reading -/

/-- Reading a cell other than the status register is looking at it. -/
@[simp] theorem read_of_ne (m : Memory) {a : Word} (h : a ≠ statusAddress) :
    m.read a = (m.peek a, m) := by
  simp [read, h]

theorem read_statusAddress (m : Memory) :
    m.read statusAddress = (m.refresh.peek statusAddress, m.refresh) := by
  simp [read]

/-- What bringing the device registers up to date leaves in each cell. -/
theorem peek_refresh (m : Memory) (a : Word) :
    m.refresh.peek a = match m.keyboard.next? with
      | some (c, _) =>
        if a = statusAddress then readyStatus else if a = dataAddress then c else m.peek a
      | none => if a = statusAddress then 0 else m.peek a := by
  unfold refresh
  split
  · simp only [peek, Bank.get_set]
  · simp only [peek_write]

theorem keyboard_refresh (m : Memory) :
    m.refresh.keyboard = match m.keyboard.next? with
      | some (_, rest) => rest
      | none => m.keyboard := by
  unfold refresh
  split
  · rfl
  · rfl

/-- The status register answers with bit 15 if a character is available, otherwise with zero. -/
theorem read_status (m : Memory) :
    (m.read statusAddress).1 = if m.keyboard.available = [] then 0 else readyStatus := by
  rw [read_statusAddress, peek_refresh]
  cases h : m.keyboard.next? with
  | none => simp [(Keyboard.next?_eq_none_iff _).1 h]
  | some next => simp [(Keyboard.available_of_next? h).1]

/-! ### Strings -/

/-- How many more words a string can have at most: every lap over all addresses costs a character,
and the last lap ends at the status register. -/
def stringBound (m : Memory) (a : Word) : Nat :=
  65536 * m.keyboard.available.length + (statusAddress - a).toNat

private theorem toNat_sub_one_add_one {d : Word} (h : d ≠ 0) : (d - 1).toNat + 1 = d.toNat := by
  have hd : 1 ≤ d.toNat := Nat.one_le_iff_ne_zero.2 fun hn => h (BitVec.eq_of_toNat_eq hn)
  have hle : (1 : Word) ≤ d := BitVec.le_def.2 hd
  rw [BitVec.toNat_sub_of_le hle]
  exact Nat.sub_add_cancel hd

/-- Behind a word other than zero the bound is smaller. -/
theorem stringBound_read_lt (m : Memory) (a : Word) (h : (m.read a).1 ≠ 0) :
    (m.read a).2.stringBound (a + 1) < m.stringBound a := by
  have lap (x y d e : Nat) (hx : x = y + 1) (hd : d < 65536) :
      65536 * y + d < 65536 * x + e := by
    rw [hx, Nat.mul_add_one]
    exact Nat.lt_of_lt_of_le (Nat.add_lt_add_left hd _) (Nat.le_add_right _ _)
  by_cases ha : a = statusAddress
  · -- the status register answered, so a character was there and a new lap begins with one less
    subst ha
    have hne : m.keyboard.available ≠ [] := fun hn => by simp [read_status, hn] at h
    cases hk : m.keyboard.next? with
    | none => exact absurd ((Keyboard.next?_eq_none_iff _).1 hk) hne
    | some next =>
      obtain ⟨c, rest⟩ := next
      have hrest : (m.read statusAddress).2.keyboard = rest := by
        rw [read_statusAddress, keyboard_refresh, hk]
      unfold stringBound
      rw [hrest]
      exact lap _ _ _ _ (by rw [(Keyboard.available_of_next? hk).1, List.length_cons])
        (BitVec.isLt _)
  · -- any other cell: one step nearer to the status register on the same lap
    rw [read_of_ne m ha]
    have hd : statusAddress - a ≠ 0 := fun h0 => ha (by
      rw [BitVec.sub_eq_iff_eq_add] at h0
      simpa using h0.symm)
    refine Nat.add_lt_add_left ?_ _
    rw [← BitVec.sub_sub, ← toNat_sub_one_add_one hd]
    exact Nat.lt_succ_self _

/-- Reads the string at an address behind the words already `found`, the latest first. -/
private def scan (m : Memory) (a : Word) (found : List Word) : List Word × Memory :=
  if _h : (m.read a).1 = 0 then (found.reverse, (m.read a).2)
  else scan (m.read a).2 (a + 1) ((m.read a).1 :: found)
termination_by m.stringBound a
decreasing_by exact stringBound_read_lt m a _h

/-- Reads the words from an address up to a zero word, which is not part of the string. -/
def readString (m : Memory) (a : Word) : List Word × Memory := scan m a []

private theorem scan_of_zero {m : Memory} {a : Word} (h : (m.read a).1 = 0) (found : List Word) :
    scan m a found = (found.reverse, (m.read a).2) := by
  rw [scan, dif_pos h]

private theorem scan_of_ne_zero {m : Memory} {a : Word} (h : (m.read a).1 ≠ 0)
    (found : List Word) :
    scan m a found = scan (m.read a).2 (a + 1) ((m.read a).1 :: found) := by
  rw [scan, dif_neg h]

private theorem scan_eq (m : Memory) (a : Word) (found : List Word) :
    scan m a found = (found.reverse ++ (scan m a []).1, (scan m a []).2) := by
  have regroup (w : Word) (found : List Word) (s : List Word × Memory) :
      ((w :: found).reverse ++ s.1, s.2) =
        (found.reverse ++ ([w].reverse ++ s.1, s.2).1, ([w].reverse ++ s.1, s.2).2) := by
    simp
  induction hn : m.stringBound a using Nat.strongRecOn generalizing m a found with
  | ind n ih =>
    by_cases h : (m.read a).1 = 0
    · rw [scan_of_zero h, scan_of_zero h, List.reverse_nil, List.append_nil]
    · have hlt := stringBound_read_lt m a h
      rw [hn] at hlt
      rw [scan_of_ne_zero h, scan_of_ne_zero h, ih _ hlt _ _ _ rfl, ih _ hlt _ _ [_] rfl]
      exact regroup _ _ _

/-- A string is its first word and, unless that is zero, the string behind it. -/
theorem readString_eq (m : Memory) (a : Word) :
    m.readString a =
      if (m.read a).1 = 0 then ([], (m.read a).2)
      else ((m.read a).1 :: ((m.read a).2.readString (a + 1)).1,
        ((m.read a).2.readString (a + 1)).2) := by
  have cons (w : Word) (s : List Word × Memory) : ([w].reverse ++ s.1, s.2) = (w :: s.1, s.2) := by
    simp
  unfold readString
  by_cases h : (m.read a).1 = 0
  · rw [scan_of_zero h, if_pos h, List.reverse_nil]
  · rw [scan_of_ne_zero h, scan_eq, if_neg h]
    exact cons _ _

end Memory

end LC3
