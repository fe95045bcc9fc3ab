import LC3.Proofs.Keyboard.Source
import LC3.Proofs.Progress

/-!
# The console is transparent

Two programs copy input to output, and between them they use everything that lies on the way of a
character. The **echo** program waits for a character and writes it. The **poll** program reads the
status register until it answers, takes the character out of the data register, and writes it. Both
are endless loops; the first one is left by the fault that ends the input, and the second one never.

`Machine.At` describes a machine at an instruction of its program, with the input that is still to
come, and there is one lemma for each kind of instruction that says where it leads (`At.getc`,
`At.out`, `At.br`, `At.ldi_status`, `At.ldi_data`). A round of a loop puts these together: it takes
the first byte of the input to the console and leads back to where it began.

* `echo_round`, `echo_run` — three cycles for a byte, and the fault behind the last one.
* `poll_round`, `poll_idle` — five cycles for a byte, and then two cycles that do nothing.

Whole runs are inductions on the input, or on the number of cycles. A byte comes through unchanged
whatever it is; zero, and bytes that are not ASCII, are no exceptions. In particular the condition
that the poll program branches on is made of the answer of the status register and not of the byte.
-/

namespace LC3

/-! ### Programs in memory -/

/-- The address of a word of a program. -/
def codeAddress (i : ℕ) : Word := BitVec.ofNat 16 (0x3000 + i)

theorem codeAddress_succ (i : ℕ) : codeAddress i + 1 = codeAddress (i + 1) :=
  (BitVec.ofNat_add (0x3000 + i) 1).symm

theorem toNat_codeAddress {i : ℕ} (hi : i < 0xCE00) : (codeAddress i).toNat = 0x3000 + i := by
  unfold codeAddress
  rw [BitVec.toNat_ofNat]
  exact Nat.mod_eq_of_lt (by omega)

/-- The words stand in memory where programs start, and they end below the device registers. -/
structure Memory.Holds (m : Memory) (words : List Word) : Prop where
  fits : words.length ≤ 0xCE00
  peek : ∀ i w, words[i]? = some w → m.peek (codeAddress i) = w

namespace Memory

variable {m m' : Memory} {words : List Word}

theorem Holds.toNat_lt (h : m.Holds words) {i : ℕ} {w : Word} (hw : words[i]? = some w) :
    (codeAddress i).toNat < 0xFE00 := by
  have hi : i < words.length := (List.getElem?_eq_some_iff.1 hw).1
  have hfits := h.fits
  rw [toNat_codeAddress (Nat.lt_of_lt_of_le hi hfits)]
  omega

theorem Holds.ne_status (h : m.Holds words) {i : ℕ} {w : Word} (hw : words[i]? = some w) :
    codeAddress i ≠ statusAddress := by
  intro heq
  have hlt := h.toNat_lt hw
  rw [heq] at hlt
  exact absurd hlt (by decide)

theorem Holds.congr (h : m.Holds words)
    (hm : ∀ a : Word, a.toNat < 0xFE00 → m'.peek a = m.peek a) : m'.Holds words where
  fits := h.fits
  peek i w hw := (hm _ (h.toNat_lt hw)).trans (h.peek i w hw)

/-- The device registers lie above. -/
theorem peek_refresh_of_lt (m : Memory) {a : Word} (ha : a.toNat < 0xFE00) :
    m.refresh.peek a = m.peek a := by
  have hstatus : a ≠ statusAddress := fun h => absurd (h ▸ ha) (by decide)
  have hdata : a ≠ dataAddress := fun h => absurd (h ▸ ha) (by decide)
  rw [peek_refresh]
  split
  · rw [if_neg hstatus, if_neg hdata]
  · rw [if_neg hstatus]

/-- An image that was loaded at the start of programs is there. -/
theorem holds_afterLoading (m : Memory) (hfits : words.length ≤ 0xCE00) :
    (m.afterLoading (Image.toBytes ⟨programStart, words, none⟩)).Holds words where
  fits := hfits
  peek i w hw := by
    have hload : m.afterLoading (Image.toBytes ⟨programStart, words, none⟩) =
        m.fill programStart words := by
      unfold afterLoading
      rw [load_toBytes]
      rfl
    have hi : i < words.length := (List.getElem?_eq_some_iff.1 hw).1
    have hstart : programStart.toNat = 0x3000 := rfl
    rw [hload, peek_fill, toNat_codeAddress (Nat.lt_of_lt_of_le hi hfits), hstart,
      if_pos (Nat.le_add_right _ _), Nat.add_sub_cancel_left, hw]
    rfl

end Memory

namespace Machine

/-- A machine that starts over with a program, on a keyboard. -/
def startWith (base : Machine) (words : List Word) (k : Keyboard) : Machine :=
  (base.withMemory ((base.memory.afterLoading
    (Image.toBytes ⟨programStart, words, none⟩)).connect k)).reset

/-- A machine that runs and is at an instruction of its program, with some input still to come and
none behind it. -/
structure At (words : List Word) (i : ℕ) (input : List Byte) (m : Machine) : Prop where
  status : m.status = .running
  pc : m.registers.pc = codeAddress i
  keyboard : m.memory.keyboard = .channel (input.map .ofByte) false
  program : m.memory.Holds words

theorem at_startWith (base : Machine) {words : List Word} (hfits : words.length ≤ 0xCE00)
    (input : List Byte) :
    At words 0 input (base.startWith words (.channel (input.map .ofByte) false)) where
  status := rfl
  pc := rfl
  keyboard := rfl
  program := (base.memory.holds_afterLoading hfits).congr fun _ _ => rfl

end Machine

/-! ### Consoles that take everything -/

/-- Whatever was written to the console, it takes the next message. -/
def Accepting {σ : Type} [ByteSink σ] (s : σ) : Prop :=
  ∀ (written : List (List Byte)) (message : List Byte),
    (ByteSink.emit message
      (written.foldl (fun s message => (ByteSink.emit message s).2) s)).1 = .ok ()

section Accepting

variable {σ : Type} [ByteSink σ] {s : σ}

theorem Accepting.ok (h : Accepting s) (message : List Byte) :
    (ByteSink.emit message s).1 = .ok () :=
  h [] message

theorem Accepting.emit (h : Accepting s) (message : List Byte) :
    Accepting (ByteSink.emit message s).2 :=
  fun written => h (message :: written)

theorem accepting_open (r : Recorded OpenSink) : Accepting r :=
  fun _ message => Recorded.emit_open message _

end Accepting

/-! ### One instruction -/

namespace Hardware

/-- A branch that is taken. -/
theorem br_of_ne_zero {i : Instruction} {h : Hardware}
    (hi : i.nzp &&& h.registers.condition.bits ≠ 0) :
    h.br i = { h with registers := h.registers.jump (h.relativeAddress i 9) } :=
  if_pos hi

/-- A branch that is not taken. -/
theorem br_of_eq_zero {i : Instruction} {h : Hardware}
    (hi : i.nzp &&& h.registers.condition.bits = 0) : h.br i = h :=
  if_neg (not_not_intro hi)

/-- A load from an address that is found in a plain cell. -/
theorem ldi_of_peek {i : Instruction} {h : Hardware} {a : Word}
    (hplain : h.relativeAddress i 9 ≠ Memory.statusAddress)
    (ha : h.memory.peek (h.relativeAddress i 9) = a) : h.ldi i = h.deliverFrom i a := by
  unfold ldi indirect
  rw [Memory.read_of_ne _ hplain, ha]

end Hardware

namespace Machine.At

variable {σ : Type} [ByteSink σ] {words : List Word} {i j : ℕ} {b : Byte} {input : List Byte}
  {m : Machine} {s : σ} {w : Word}

theorem about (h : At words i input m) (hw : words[i]? = some w) : m.About w where
  status := h.status
  clear := by
    rw [h.keyboard]
    rfl
  word := by
    rw [h.pc]
    exact h.program.peek i w hw
  plain := by
    rw [h.pc]
    exact h.program.ne_status hw

theorem next?_cons (h : At words i (b :: input) m) :
    m.memory.keyboard.next? = some (.ofByte b, .channel (input.map .ofByte) false) := by
  rw [h.keyboard]
  rfl

theorem next?_nil (h : At words i [] m) : m.memory.keyboard.next? = none := by
  rw [h.keyboard]
  rfl

theorem pc_advance (h : At words i input m) : m.registers.advance.pc = codeAddress (i + 1) := by
  rw [Registers.pc_advance, h.pc, codeAddress_succ]

/-- The routine that waits for a character puts the first byte of the input into R0. -/
theorem getc (h : At words i (b :: input) m) (hw : words[i]? = some 0xF020) (s : σ) :
    ∃ m', m.Advances s 1 m' s ∧ At words (i + 1) input m' ∧ m'.registers.get 0 = .ofByte b := by
  refine ⟨_, advances_getc (h.about hw) h.next?_cons, ⟨rfl, h.pc_advance, rfl, ?program⟩, ?R0⟩
  case program => exact h.program.congr fun _ _ => rfl
  case R0 =>
    change (m.registers.advance.set 0 (.ofByte (Word.ofByte b).low)).get 0 = _
    rw [Registers.get_set_self, Word.low_ofByte]

/-- Behind the last byte it fails. -/
theorem getc_closed (h : At words i [] m) (hw : words[i]? = some 0xF020) (s : σ) :
    ∃ m' log, m.runFor 1 s = ⟨.failed .inputClosed, m', s, log⟩ := by
  refine runFor_getc_closed (h.about hw) h.next?_nil ?_
  rw [h.keyboard]
  rfl

/-- The routine that writes a character writes the byte in R0. -/
theorem out (h : At words i input m) (hw : words[i]? = some 0xF021)
    (hR0 : m.registers.get 0 = .ofByte b) (hok : (ByteSink.emit [b] s).1 = .ok ()) :
    ∃ m', m.Advances s 1 m' (ByteSink.emit [b] s).2 ∧ At words (i + 1) input m' := by
  have hlow : (m.registers.get 0).low = b := by rw [hR0, Word.low_ofByte]
  have hout := advances_out (s := s) (h.about hw) (by rw [hlow]; exact hok)
  rw [hlow] at hout
  exact ⟨_, hout, rfl, h.pc_advance, h.keyboard, h.program⟩

/-- A branch that is taken leads to another instruction of the program. -/
theorem br (h : At words i input m) (hw : words[i]? = some w)
    (hop : (Instruction.mk w).operation = .br)
    (htaken : (Instruction.mk w).nzp &&& m.registers.condition.bits ≠ 0)
    (htarget : codeAddress (i + 1) + (Instruction.mk w).offset 9 = codeAddress j) (s : σ) :
    ∃ m', m.Advances s 1 m' s ∧ At words j input m' := by
  have hx : (Hardware.mk m.registers.advance m.memory).execute? ⟨w⟩ =
      some ⟨m.registers.advance.jump (codeAddress j), m.memory⟩ := by
    unfold Hardware.execute?
    rw [hop]
    refine congrArg some
      ((Hardware.br_of_ne_zero (h := ⟨m.registers.advance, m.memory⟩) htaken).trans ?_)
    unfold Hardware.relativeAddress
    rw [h.pc_advance, htarget]
  exact ⟨_, advances_execute (h.about hw) hx, rfl, rfl, h.keyboard, h.program⟩

/-- One that is not taken leads to the next instruction. -/
theorem br_not_taken (h : At words i input m) (hw : words[i]? = some w)
    (hop : (Instruction.mk w).operation = .br)
    (hnot : (Instruction.mk w).nzp &&& m.registers.condition.bits = 0) (s : σ) :
    ∃ m', m.Advances s 1 m' s ∧ At words (i + 1) input m' ∧ m'.memory = m.memory := by
  have hx : (Hardware.mk m.registers.advance m.memory).execute? ⟨w⟩ =
      some ⟨m.registers.advance, m.memory⟩ := by
    unfold Hardware.execute?
    rw [hop]
    exact congrArg some (Hardware.br_of_eq_zero hnot)
  exact ⟨_, advances_execute (h.about hw) hx, ⟨rfl, h.pc_advance, h.keyboard, h.program⟩, rfl⟩

/-- What an indirect load does whose pointer is a word of the program. -/
theorem execute_ldi {a : Word} (h : At words i input m)
    (hop : (Instruction.mk w).operation = .ldi)
    (hpointer : codeAddress (i + 1) + (Instruction.mk w).offset 9 = codeAddress j)
    (ha : words[j]? = some a) :
    (Hardware.mk m.registers.advance m.memory).execute? ⟨w⟩ =
      some ((Hardware.mk m.registers.advance m.memory).deliverFrom ⟨w⟩ a) := by
  have hrelative : (Hardware.mk m.registers.advance m.memory).relativeAddress ⟨w⟩ 9 =
      codeAddress j := by
    unfold Hardware.relativeAddress
    rw [h.pc_advance, hpointer]
  unfold Hardware.execute?
  rw [hop]
  refine congrArg some (Hardware.ldi_of_peek ?_ ?_)
  · rw [hrelative]
    exact h.program.ne_status ha
  · rw [hrelative]
    exact h.program.peek j a ha

/-- A load from the status register. If there is a byte, it goes into the data register and the
condition becomes negative; otherwise the condition becomes zero. -/
theorem ldi_status (h : At words i input m) (hw : words[i]? = some w)
    (hop : (Instruction.mk w).operation = .ldi)
    (hpointer : codeAddress (i + 1) + (Instruction.mk w).offset 9 = codeAddress j)
    (ha : words[j]? = some 0xFE00) (s : σ) :
    ∃ m', m.Advances s 1 m' s ∧ At words (i + 1) input.tail m' ∧
      m'.registers.condition = (if input = [] then .zero else .negative) ∧
      ∀ b, input.head? = some b → m'.memory.peek Memory.dataAddress = .ofByte b := by
  have hread := m.memory.read_statusAddress
  have hmemory : ((Hardware.mk m.registers.advance m.memory).deliverFrom ⟨w⟩ 0xFE00).memory =
      m.memory.refresh := congrArg Prod.snd hread
  refine ⟨_, advances_execute (h.about hw) (h.execute_ldi hop hpointer ha),
    ⟨rfl, h.pc_advance, ?keyboard, ?program⟩, ?condition, ?data⟩
  case keyboard =>
    -- the look takes the byte out of the queue
    rw [hmemory, Memory.keyboard_refresh]
    cases input with
    | nil =>
      rw [h.next?_nil]
      exact h.keyboard
    | cons b input =>
      rw [h.next?_cons]
      rfl
  case program =>
    rw [hmemory]
    exact h.program.congr fun a hlt => m.memory.peek_refresh_of_lt hlt
  case condition =>
    change Condition.ofWord (m.memory.read Memory.statusAddress).1 = _
    rw [m.memory.read_status, h.keyboard, Keyboard.available_channel]
    cases input with
    | nil => decide
    | cons b input => exact (by decide : Condition.ofWord Memory.readyStatus = .negative)
  case data =>
    intro b hb
    cases input with
    | nil => cases hb
    | cons b' input =>
      cases hb
      rw [hmemory, Memory.peek_refresh, h.next?_cons]
      rfl

/-- A load from the data register into R0. -/
theorem ldi_data (h : At words i input m) (hw : words[i]? = some w)
    (hop : (Instruction.mk w).operation = .ldi) (hdr : (Instruction.mk w).dr = 0)
    (hpointer : codeAddress (i + 1) + (Instruction.mk w).offset 9 = codeAddress j)
    (ha : words[j]? = some 0xFE02) (s : σ) :
    ∃ m', m.Advances s 1 m' s ∧ At words (i + 1) input m' ∧
      m'.registers.get 0 = m.memory.peek Memory.dataAddress := by
  have hread : m.memory.read 0xFE02 = (m.memory.peek 0xFE02, m.memory) :=
    Memory.read_of_ne _ (by decide)
  have hx := h.execute_ldi hop hpointer ha
  unfold Hardware.deliverFrom at hx
  rw [hdr, hread] at hx
  exact ⟨_, advances_execute (h.about hw) hx, ⟨rfl, h.pc_advance, h.keyboard, h.program⟩,
    Registers.get_set_self _ _ _⟩

end Machine.At

/-- A loop that takes a byte to the console in each round takes the whole input there. -/
theorem Machine.rounds {σ : Type} [ByteSink σ] {words : List Word} {k : ℕ}
    (hround : ∀ (b : Byte) (input : List Byte) (m : Machine) (s : Recorded σ),
      At words 0 (b :: input) m → Accepting s →
        ∃ m', m.Advances s k m' (ByteSink.emit [b] s).2 ∧ At words 0 input m')
    {m : Machine} {input : List Byte} (h : At words 0 input m) {s : Recorded σ}
    (hs : Accepting s) :
    ∃ m' s', m.Advances s (k * input.length) m' s' ∧ At words 0 [] m' ∧
      s'.output = s.output ++ input := by
  induction input generalizing m s with
  | nil => exact ⟨m, s, .refl h.status, h, (List.append_nil _).symm⟩
  | cons b input ih =>
    obtain ⟨m₁, hfirst, h₁⟩ := hround b input m s h hs
    obtain ⟨m', s', hrest, h', hout⟩ := ih h₁ (hs.emit [b])
    refine ⟨m', s', ?_, h', ?_⟩
    · rw [List.length_cons, Nat.mul_succ, Nat.add_comm]
      exact hfirst.trans hrest
    · rw [hout, transmits_recorded.emit_ok trivial (hs.ok [b]), List.append_assoc]
      rfl

/-! ### The echo program -/

/-- Waits for a character and writes it, again and again. -/
def echoProgram : List Word :=
  [ 0xF020     -- GETC
  , 0xF021     -- OUT
  , 0x0FFD ]   -- BRnzp to the first instruction

section Echo

variable {σ : Type} [ByteSink σ] {m : Machine} {input : List Byte}

open Machine

/-- **A round of the echo program** takes the first byte of the input to the console. -/
theorem echo_round {b : Byte} (h : At echoProgram 0 (b :: input) m) {s : σ} (hs : Accepting s) :
    ∃ m', m.Advances s 3 m' (ByteSink.emit [b] s).2 ∧ At echoProgram 0 input m' := by
  obtain ⟨m₁, hgetc, h₁, hR0⟩ := h.getc rfl s
  obtain ⟨m₂, hout, h₂⟩ := h₁.out rfl hR0 (hs.ok [b])
  have htaken : (Instruction.mk 0x0FFD).nzp &&& m₂.registers.condition.bits ≠ 0 := by
    cases m₂.registers.condition <;> decide
  obtain ⟨m₃, hback, h₃⟩ := h₂.br (j := 0) rfl (by decide) htaken (by decide)
    (ByteSink.emit [b] s).2
  exact ⟨m₃, (hgetc.trans hout).trans hback, h₃⟩

/-- **A run of the echo program** goes on for three cycles for each byte, and the next cycle finds
the input closed. -/
theorem echo_run (h : At echoProgram 0 input m) {s : Recorded σ} (hs : Accepting s) :
    (m.runFor (3 * input.length + 1) s).sink.output = s.output ++ input ∧
      (m.runFor (3 * input.length + 1) s).ending = .failed .inputClosed ∧
      ∀ n ≤ 3 * input.length, (m.runFor n s).ending = .unfinished := by
  obtain ⟨m₁, s₁, hrounds, h₁, hout⟩ := rounds (fun _ _ _ _ h hs => echo_round h hs) h hs
  obtain ⟨m', log, hclosed⟩ := h₁.getc_closed rfl s₁
  obtain ⟨log', hrun⟩ := hrounds
  -- one more cycle behind the rounds
  have hlast := runFor_add hrun 1
  rw [hclosed] at hlast
  rw [hlast]
  exact ⟨hout, rfl, fun n hn => Advances.unfinished ⟨log', hrun⟩ hn⟩

/-- Its execution returns what that run comes to, and nothing else. -/
theorem echo_executes_iff (h : At echoProgram 0 input m) {s : Recorded σ} (hs : Accepting s)
    (r : Run (Recorded σ)) :
    (∃ fs : Changes, fs.Idle ∧ m.Executes s fs r) ↔ r = m.runFor (3 * input.length + 1) s := by
  obtain ⟨-, hending, hgoes⟩ := echo_run h hs
  have hended : (m.runFor (3 * input.length + 1) s).ending ≠ .unfinished := by
    rw [hending]
    exact Ending.noConfusion
  rw [executes_iff_runFor]
  constructor
  · rintro ⟨⟨n, rfl⟩, hend⟩
    obtain hlt | hle := Nat.lt_or_ge (3 * input.length) n
    · obtain ⟨j, rfl⟩ := Nat.exists_eq_add_of_le (Nat.succ_le_of_lt hlt)
      exact runFor_of_ended hended j
    · -- so few cycles do not end it
      rw [hgoes n hle] at hend
      obtain hend | ⟨fault, hend⟩ := hend <;> cases hend
  · rintro rfl
    exact ⟨⟨_, rfl⟩, .inr ⟨_, hending⟩⟩

end Echo

/-! ### The poll program -/

/-- Reads the status register until it answers, then takes a character out of the data register and
writes it, again and again. -/
def pollProgram : List Word :=
  [ 0xA204     -- LDI R1, the status register
  , 0x07FE     -- BRzp to the first instruction
  , 0xA003     -- LDI R0, the data register
  , 0xF021     -- OUT
  , 0x0FFB     -- BRnzp to the first instruction
  , 0xFE00
  , 0xFE02 ]

section Poll

variable {σ : Type} [ByteSink σ] {m : Machine} {input : List Byte}

open Machine

/-- **A round of the poll program** takes the first byte of the input to the console. -/
theorem poll_round {b : Byte} (h : At pollProgram 0 (b :: input) m) {s : σ} (hs : Accepting s) :
    ∃ m', m.Advances s 5 m' (ByteSink.emit [b] s).2 ∧ At pollProgram 0 input m' := by
  obtain ⟨m₁, hstatus, h₁, hnegative, hdata⟩ :=
    h.ldi_status (j := 5) rfl (by decide) (by decide) rfl s
  -- the answer is negative whatever the byte is, and so the branch does not lead back
  have hnot : (Instruction.mk 0x07FE).nzp &&& m₁.registers.condition.bits = 0 := by
    rw [hnegative, if_neg (List.cons_ne_nil b input)]
    decide
  obtain ⟨m₂, hpass, h₂, hmemory⟩ := h₁.br_not_taken rfl (by decide) hnot s
  obtain ⟨m₃, hload, h₃, hR0⟩ :=
    h₂.ldi_data (j := 6) rfl (by decide) (by decide) (by decide) rfl s
  rw [hmemory, hdata b rfl] at hR0
  obtain ⟨m₄, hout, h₄⟩ := h₃.out rfl hR0 (hs.ok [b])
  have htaken : (Instruction.mk 0x0FFB).nzp &&& m₄.registers.condition.bits ≠ 0 := by
    cases m₄.registers.condition <;> decide
  obtain ⟨m₅, hback, h₅⟩ := h₄.br (j := 0) rfl (by decide) htaken (by decide)
    (ByteSink.emit [b] s).2
  exact ⟨m₅, (((hstatus.trans hpass).trans hload).trans hout).trans hback, h₅⟩

/-- **Without input the poll program only reads the status register**, for ever. -/
theorem poll_idle (s : σ) : ∀ (n : ℕ) {m : Machine}, At pollProgram 0 [] m →
    ∃ m', m.Advances s n m' s
  | 0, m, h => ⟨m, .refl h.status⟩
  | 1, _, h =>
    have ⟨m₁, hstatus, _⟩ := h.ldi_status (j := 5) rfl (by decide) (by decide) rfl s
    ⟨m₁, hstatus⟩
  | n + 2, m, h => by
    -- the condition is zero, and so the branch leads back
    obtain ⟨m₁, hstatus, h₁, hzero, -⟩ :=
      h.ldi_status (j := 5) rfl (by decide) (by decide) rfl s
    have htaken : (Instruction.mk 0x07FE).nzp &&& m₁.registers.condition.bits ≠ 0 := by
      rw [hzero]
      decide
    obtain ⟨m₂, hback, h₂⟩ := h₁.br (j := 0) rfl (by decide) htaken (by decide) s
    obtain ⟨m', hrest⟩ := poll_idle s n h₂
    refine ⟨m', ?_⟩
    rw [Nat.add_comm]
    exact (hstatus.trans hback).trans hrest

/-- **A run of the poll program** goes on for ever. It writes the input in five cycles for each
byte, and nothing behind that. -/
theorem poll_run (h : At pollProgram 0 input m) {s : Recorded σ} (hs : Accepting s) :
    (m.runFor (5 * input.length) s).sink.output = s.output ++ input ∧
      (∀ n, 5 * input.length ≤ n →
        (m.runFor n s).sink = (m.runFor (5 * input.length) s).sink) ∧
      ∀ n, (m.runFor n s).ending = .unfinished := by
  obtain ⟨m₁, s₁, hrounds, h₁, hout⟩ := rounds (fun _ _ _ _ h hs => poll_round h hs) h hs
  have hidle (j : ℕ) : ∃ m', m.Advances s (5 * input.length + j) m' s₁ := by
    obtain ⟨m', hidle⟩ := poll_idle s₁ j h₁
    exact ⟨m', hrounds.trans hidle⟩
  rw [hrounds.sink]
  refine ⟨hout, ?_, ?_⟩
  · intro n hn
    obtain ⟨j, rfl⟩ := Nat.exists_eq_add_of_le hn
    obtain ⟨m', hadvances⟩ := hidle j
    exact hadvances.sink
  · intro n
    obtain ⟨m', hadvances⟩ := hidle n
    exact hadvances.unfinished (Nat.le_add_left n _)

/-- A shorter run has written a part of the input. -/
theorem poll_run_of_le (h : At pollProgram 0 input m) {s : Recorded σ} (hs : Accepting s) {n : ℕ}
    (hn : n ≤ 5 * input.length) :
    ∃ sent, sent <+: input ∧ (m.runFor n s).sink.output = s.output ++ sent := by
  obtain ⟨sent, hsent⟩ := m.output_runFor s n
  have hle := m.output_runFor_le s hn
  rw [(poll_run h hs).1, ← hsent] at hle
  exact ⟨sent, (List.prefix_append_right_inj _).1 hle, hsent.symm⟩

end Poll

/-! ### Both programs -/

/-- **The console is transparent.** Let a stream come to its end before a program runs, in whatever
chunks it was read, and let the console take everything.

The echo program writes the bytes of the stream and nothing else. Three cycles for each byte end
with the machine running, and the next one ends the run because the input is closed; this is the
only way in which its execution returns.

The poll program has written the bytes of the stream after five cycles for each of them. Before that
it has written a part of them, and from then on it writes nothing more, and it never ends. -/
theorem console_transparent {σ : Type} [ByteSink σ] (base : Machine)
    (script : List Stream.Chunk) (start : Recorded σ) (hstart : Accepting start) :
    let text := Stream.bytes script
    let k := (Stream.drain true (script ++ [.ok []])).keyboard
    let echo := base.startWith echoProgram k
    let poll := base.startWith pollProgram k
    let echoed := echo.runFor (3 * text.length + 1) start
    let polled := poll.runFor (5 * text.length) start
    (echoed.sink.output = start.output ++ text ∧
        echoed.ending = .failed .inputClosed ∧
        Fault.inputClosed.message = Fault.consoleMessage "Keyboard input closed" ∧
        (∀ n ≤ 3 * text.length, (echo.runFor n start).ending = .unfinished) ∧
        ∀ r, (∃ fs : Changes, fs.Idle ∧ echo.Executes start fs r) ↔ r = echoed) ∧
      polled.sink.output = start.output ++ text ∧
      (∀ n ≤ 5 * text.length, ∃ sent, sent <+: text ∧
        (poll.runFor n start).sink.output = start.output ++ sent) ∧
      (∀ n, 5 * text.length ≤ n → (poll.runFor n start).sink = polled.sink) ∧
      ∀ n, (poll.runFor n start).ending = .unfinished := by
  intro text k echo poll echoed polled
  have hk : k = .channel (text.map .ofByte) false := Stream.keyboard_drain script
  have hat (words : List Word) (hfits : words.length ≤ 0xCE00) :
      Machine.At words 0 text (base.startWith words k) := by
    rw [hk]
    exact base.at_startWith hfits text
  have hecho : Machine.At echoProgram 0 text echo := hat echoProgram (by decide)
  have hpoll : Machine.At pollProgram 0 text poll := hat pollProgram (by decide)
  obtain ⟨hechoOutput, hclosed, hgoes⟩ := echo_run hecho hstart
  obtain ⟨hpollOutput, hlonger, hendless⟩ := poll_run hpoll hstart
  exact ⟨⟨hechoOutput, hclosed, rfl, hgoes, echo_executes_iff hecho hstart⟩, hpollOutput,
    fun n hn => poll_run_of_le hpoll hstart hn, hlonger, hendless⟩

/-- A stream with a zero byte and one that is not ASCII; a read in between was interrupted. -/
def cutInput : List Stream.Chunk :=
  [.ok [0x00], .error ⟨.interrupted, "interrupted"⟩, .ok [0xC3, 0x0A]]

theorem console_transparent_cutInput :
    let start := Recorded.start OpenSink.mk
    let k := (Stream.drain true (cutInput ++ [.ok []])).keyboard
    let base := Machine.initial .disconnected
    Accepting start ∧ Stream.bytes cutInput = [0x00, 0xC3, 0x0A] ∧
      ((base.startWith echoProgram k).runFor 10 start).ending = .failed .inputClosed ∧
      ((base.startWith pollProgram k).runFor 15 start).sink.output = [0x00, 0xC3, 0x0A] :=
  have hstart := accepting_open (Recorded.start OpenSink.mk)
  have ⟨⟨_, hclosed, _⟩, hpolled, _⟩ :=
    console_transparent (Machine.initial .disconnected) cutInput (Recorded.start OpenSink.mk) hstart
  ⟨hstart, rfl, hclosed, hpolled⟩

end LC3
