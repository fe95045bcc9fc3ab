import LC3.Console.Devices
import LC3.Proofs.FailedCalls

/-!
# What one instruction takes from the keyboard

An instruction makes up to three accesses to memory: it is fetched, it may read a pointer, and it
may read or write a cell. Each of the reads may be one of the status register, and a read of the
status register takes a character away. Yet no two of them do. The word that a look at the keyboard
answers when it finds a character is `0x8000`, and this word leads nowhere near the keyboard: as an
instruction it is invalid, so nothing else is read, and as a pointer it is the address of an
ordinary cell, so what is read or written there is neither the status register nor the data
register, where the character lies (`Access.takesUpToOne_read_cons`). A routine that receives a key
is fetched from an ordinary cell, since `0x8000` is no call of it either.

The routines that print a string are different. They read as many cells as the string is long, and
a string across the status register takes a character on every lap.

* `Access.TakesUpToOne` — what accesses take away is at most one character, which they leave in the
  data register.
* `Machine.takesUpToOne_accesses` — those of the first part of a cycle.
* `Machine.begin_awaitKey` — a cycle with a second part has taken nothing in its first one.
* `one_character_per_instruction` — the statement for a whole instruction, whose keyboard may change
  while it waits.
-/

namespace LC3

open Memory

namespace Access

/-- Accesses that leave the keyboard alone, and the character in the data register. -/
def Spares (xs : List Access) (m : Memory) : Prop :=
  (performAll xs m).keyboard = m.keyboard ∧
    (performAll xs m).peek dataAddress = m.peek dataAddress

/-- What accesses take from the keyboard. -/
inductive TakesUpToOne (xs : List Access) (m : Memory) : Prop
  /-- Nothing. -/
  | nothing (hk : (performAll xs m).keyboard = m.keyboard)
  /-- The next character, by a read of the status register; it is in the data register now. -/
  | one {ch : Word} {rest : Keyboard} (hread : read statusAddress ∈ xs)
      (hn : m.keyboard.next? = some (ch, rest)) (hk : (performAll xs m).keyboard = rest)
      (hd : (performAll xs m).peek dataAddress = ch)

theorem spares_nil (m : Memory) : Spares [] m := ⟨rfl, rfl⟩

theorem spares_read {a : Word} (ha : a ≠ statusAddress) (m : Memory) : Spares [read a] m := by
  have hread : performAll [read a] m = m := congrArg Prod.snd (m.read_of_ne ha)
  unfold Spares
  rw [hread]
  exact ⟨rfl, rfl⟩

theorem spares_write {a : Word} (ha : a ≠ dataAddress) (value : Word) (m : Memory) :
    Spares [write a value] m :=
  ⟨rfl, (m.peek_write a dataAddress value).trans (if_neg ha.symm)⟩

/-- **A read takes at most one character**, together with what follows it: behind a read that has
found a character there must be nothing that concerns the keyboard. -/
theorem takesUpToOne_read_cons {a : Word} {xs : List Access} {m : Memory}
    (hready : (m.read a).1 = readyStatus → Spares xs (m.read a).2)
    (hxs : TakesUpToOne xs (m.read a).2) : TakesUpToOne (read a :: xs) m := by
  -- a read that leaves the keyboard as it is leaves everything to what follows
  have hrest (hk : (m.read a).2.keyboard = m.keyboard) : TakesUpToOne (read a :: xs) m := by
    cases hxs with
    | nothing hafter => exact .nothing (hafter.trans hk)
    | one hread hn hafter hd =>
      rw [hk] at hn
      exact .one (List.mem_cons_of_mem _ hread) hn hafter hd
  by_cases ha : a = statusAddress
  · cases hn : m.keyboard.next? with
    | none => exact hrest (read_status_of_none ha hn).2.2
    | some next =>
      obtain ⟨ch, rest⟩ := next
      obtain ⟨hword, hpeek, hk⟩ := read_status_of_next? ha hn
      obtain ⟨hspared, hdata⟩ := hready hword
      have hhead : read statusAddress ∈ read a :: xs := by
        rw [ha]
        exact List.mem_cons_self
      refine .one hhead hn (hspared.trans hk) ?_
      calc (performAll xs (m.read a).2).peek dataAddress
          = (m.read a).2.peek dataAddress := hdata
        _ = ch := hpeek dataAddress
  · exact hrest (congrArg (fun r => r.2.keyboard) (m.read_of_ne ha))

theorem takesUpToOne_nil (m : Memory) : TakesUpToOne [] m := .nothing rfl

theorem takesUpToOne_read (a : Word) (m : Memory) : TakesUpToOne [read a] m :=
  takesUpToOne_read_cons (fun _ => spares_nil _) (takesUpToOne_nil _)

theorem takesUpToOne_write (a value : Word) (m : Memory) : TakesUpToOne [write a value] m :=
  .nothing rfl

end Access

open Access

/-! ### The accesses of an instruction -/

/-- An instruction for registers and memory reads a pointer and a cell at most, and a pointer that
was found in the status register points to an ordinary cell. -/
theorem Hardware.takesUpToOne_accesses (i : Instruction) (h : Hardware) :
    TakesUpToOne (h.accesses i) h.memory := by
  unfold accesses
  cases i.operation with
  | ld | ldr => exact takesUpToOne_read _ _
  | st | str => exact takesUpToOne_write _ _ _
  | ldi =>
    refine takesUpToOne_read_cons (fun hpointer => ?_) (takesUpToOne_read _ _)
    rw [hpointer]
    exact spares_read (by decide) _
  | sti =>
    refine takesUpToOne_read_cons (fun hpointer => ?_) (takesUpToOne_write _ _ _)
    rw [hpointer]
    exact spares_write (by decide) _ _
  | br | add | jsr | and | rti | not | jmp | res | lea | trap => exact takesUpToOne_nil _

/-- A routine that prints no string does not use memory before it receives its key. -/
theorem TrapRoutine.accesses_of_ne {t : TrapRoutine} (hputs : t ≠ .puts) (hputsp : t ≠ .putsp)
    (h : Hardware) : t.accesses h = [] := by
  cases t with
  | puts => exact absurd rfl hputs
  | putsp => exact absurd rfl hputsp
  | getc | out | input | halt => rfl

/-- The word that the status register answers if a character is there is an instruction without
accesses. -/
theorem Instruction.accesses_readyStatus (h : Hardware) :
    (Instruction.mk readyStatus).accesses h = [] := rfl

namespace Machine

/-- Which routine a machine is about to call, by the instruction that it fetches. -/
theorem calls_of_trap {m : Machine} {t : TrapRoutine} (hs : m.status = .running)
    (hi : m.memory.keyboard.interrupted = false) (ho : m.fetch.1.operation = .trap)
    (ht : TrapRoutine.ofVector? m.fetch.1.trapVector = some t) : m.Calls t where
  status := hs
  clear := hi
  opcode := (m.fetch.1.operation_eq_iff .trap).1 ho
  vector := by
    rw [← TrapRoutine.ofVector?_eq_some_iff.1 ht]
    exact m.fetch.1.toNat_trapVector.symm

/-- **The first part of a cycle takes at most one character**, unless it prints a string. -/
theorem takesUpToOne_accesses {m : Machine} (hputs : ¬ m.Calls .puts) (hputsp : ¬ m.Calls .putsp) :
    TakesUpToOne m.accesses m.memory := by
  unfold accesses
  cases hs : m.status with
  | halted => exact takesUpToOne_nil _
  | running =>
    cases hi : m.memory.keyboard.interrupted with
    | true => exact takesUpToOne_nil _
    | false =>
      refine takesUpToOne_read_cons (fun hword => ?_) ?_
      · -- a word from the status register is no instruction that does anything
        have hinstruction : m.fetch.1 = ⟨readyStatus⟩ := congrArg Instruction.mk hword
        rw [hinstruction, Instruction.accesses_readyStatus]
        exact spares_nil _
      · change TakesUpToOne (m.fetch.1.accesses m.fetch.2) m.fetch.2.memory
        refine dispatch_cases (i := m.fetch.1) (h := m.fetch.2) ?execute ?trap ?badTrap ?invalid
        case execute =>
          intro h' hx
          rw [Instruction.accesses_of_execute hx]
          exact Hardware.takesUpToOne_accesses _ _
        case trap =>
          intro t ho ht
          have hcalls : m.Calls t := calls_of_trap hs hi ho ht
          have hnoPuts : t ≠ .puts := fun heq => hputs (heq ▸ hcalls)
          have hnoPutsp : t ≠ .putsp := fun heq => hputsp (heq ▸ hcalls)
          rw [Instruction.accesses_of_trap ho ht, TrapRoutine.accesses_of_ne hnoPuts hnoPutsp]
          exact takesUpToOne_nil _
        case badTrap =>
          intro ho ht
          rw [Instruction.accesses_of_badTrap ho ht]
          exact takesUpToOne_nil _
        case invalid =>
          intro ho
          rw [Instruction.accesses_of_invalid ho]
          exact takesUpToOne_nil _

/-! ### The pause -/

variable {σ : Type} [ByteSink σ]

/-- A routine that needs a key is called by a cycle that has done nothing else yet. -/
theorem begin_awaitKey {m : Machine} {s : σ} {address : Word} {echo : Bool}
    (hp : (m.begin s).phase = .awaitKey address echo) :
    (m.Calls .getc ∨ m.Calls .input) ∧ (m.begin s).machine.memory = m.memory := by
  cases hs : m.status with
  | halted =>
    rw [begin_halted hs] at hp
    cases hp
  | running =>
    cases hi : m.memory.keyboard.interrupted with
    | true =>
      rw [begin_interrupted hs hi] at hp
      cases hp
    | false =>
      refine dispatch_cases (i := m.fetch.1) (h := m.fetch.2) ?execute ?trap ?badTrap ?invalid
      case execute =>
        intro h' hx
        rw [begin_running hs hi, dispatch_execute hx] at hp
        cases hp
      case trap =>
        intro t ho ht
        have hcalls : m.Calls t := calls_of_trap hs hi ho ht
        rw [hcalls.begin_eq s] at hp ⊢
        rw [Cycle.hardware_ofTrapRun]
        rcases TrapRoutine.of_awaitKey (Cycle.flow_of_awaitKey hp) with
          ⟨rfl, -, hbegin⟩ | ⟨rfl, -, -, hbegin⟩
        · rw [hbegin]
          exact ⟨.inl hcalls, rfl⟩
        · rw [hbegin]
          exact ⟨.inr hcalls, rfl⟩
      case badTrap =>
        intro ho ht
        rw [begin_running hs hi, dispatch_badTrap ho ht] at hp
        cases hp
      case invalid =>
        intro ho
        rw [begin_running hs hi, dispatch_invalid ho] at hp
        cases hp

end Machine

/-- Behind its pause a routine takes the next character, which R0 then holds, or none. -/
theorem TrapRoutine.receive_takes {σ : Type} [ByteSink σ] (echo : Bool) (h : Hardware) (s : σ) :
    (receive echo h s).hardware.memory.keyboard = h.memory.keyboard ∨
      ∃ ch, h.memory.keyboard.next? =
          some (ch, (receive echo h s).hardware.memory.keyboard) ∧
        ((receive echo h s).hardware.registers.get 0).toNat = ch.toNat % 256 := by
  rcases hr : h.memory.keyboard.read with ⟨key, rest⟩
  cases key with
  | waiting =>
    rw [receive_waiting hr]
    exact .inl rfl
  | failed fault =>
    rw [receive_failed hr]
    exact .inl rfl
  | character ch =>
    -- R0 is written before the echo, which changes neither registers nor memory
    have hhardware : (receive echo h s).hardware = accept h ch rest := by
      rw [receive_character hr]
      cases echo with
      | false => rfl
      | true => exact hardware_emit _ _ _ s
    rw [hhardware]
    exact .inr ⟨ch, Keyboard.next?_of_read hr, toNat_get_accept h ch rest⟩

/-! ### The statement -/

/-- **One instruction takes at most one character**, and does not lose it. A machine executes an
instruction that prints no string, and while the instruction waits, if it does, the keyboard changes
by `fs`. Then the keyboard is left as these changes make it, or without the next character. That
character was found by a read of the status register and is in the data register, or a routine has
received it and its low byte is in R0. Without such a read or routine none is taken. -/
theorem one_character_per_instruction {σ : Type} [ByteSink σ] (m : Machine) (s : σ) (fs : Changes)
    (c : Cycle σ) (h : (m.begin s).Ends fs c) (hputs : ¬ m.Calls .puts)
    (hputsp : ¬ m.Calls .putsp) :
    let before := fs.apply m.memory.keyboard
    let after := c.machine.memory.keyboard
    (after = before ∨
      ∃ ch, before.next? = some (ch, after) ∧ before.available = ch :: after.available ∧
        ((.read 0xFE00 ∈ m.accesses ∧ c.machine.memory.peek 0xFE02 = ch) ∨
          (m.Calls .getc ∨ m.Calls .input) ∧
            (c.machine.registers.get 0).toNat = ch.toNat % 256)) ∧
      (.read 0xFE00 ∉ m.accesses → ¬ m.Calls .getc → ¬ m.Calls .input → after = before) := by
  intro before after
  cases hp : (m.begin s).phase with
  | done o =>
    -- the cycle has ended with its first part
    obtain ⟨rfl, rfl⟩ := (Cycle.ends_iff_of_done hp).1 h
    have hmemory := m.memory_begin s
    cases Machine.takesUpToOne_accesses hputs hputsp with
    | nothing hk =>
      have hsame : after = before := (congrArg Memory.keyboard hmemory).trans hk
      exact ⟨.inl hsame, fun _ _ _ => hsame⟩
    | @one ch rest hread hn hk hd =>
      have hafter : rest = after := hk.symm.trans (congrArg Memory.keyboard hmemory).symm
      have hbefore : before.next? = some (ch, after) := hafter ▸ hn
      refine ⟨.inr ⟨ch, hbefore, (Keyboard.available_of_next? hbefore).1, .inl ⟨hread, ?_⟩⟩, ?_⟩
      · rw [hmemory]
        exact hd
      · intro hno
        exact absurd hread hno
  | awaitKey address echo =>
    obtain ⟨hcalls, hmemory⟩ := Machine.begin_awaitKey hp
    have hend := h.of_pause (Cycle.coherent_begin m s) hp
    -- the second part finds the keyboard as the changes have made it
    let waiting := (m.begin s).onKeyboard fs.apply
    have hkeyboard : waiting.machine.memory.keyboard = before := by
      change fs.apply (m.begin s).machine.memory.keyboard = before
      rw [hmemory]
    have hreceive : c.machine.toHardware =
        (TrapRoutine.receive echo waiting.machine.toHardware waiting.sink).hardware := by
      have hwaiting : waiting.phase = .awaitKey address echo := hp
      rw [hend, Cycle.resume_awaitKey hwaiting, Cycle.hardware_ofTrapRun]
    refine ⟨?_, fun _ hgetc hinput => (hcalls.elim hgetc hinput).elim⟩
    rcases TrapRoutine.receive_takes echo waiting.machine.toHardware waiting.sink with
      hsame | ⟨ch, hn, hregister⟩
    · rw [← hreceive, hkeyboard] at hsame
      exact .inl hsame
    · rw [← hreceive, hkeyboard] at hn
      rw [← hreceive] at hregister
      exact .inr ⟨ch, hn, (Keyboard.available_of_next? hn).1, .inr ⟨hcalls, hregister⟩⟩

/-- A machine about to load through a pointer that it finds in the status register. -/
def pointsAtStatus : Machine where
  registers := Registers.initial.jump 0xFDFF
  memory := (Memory.cleared ⟨some 0x0141, [0x42], true, false⟩).write 0xFDFF 0xA200
  status := .running

/-- The pointer is a look at the keyboard. The character in the slot gets into the data register,
and the next one stays in the queue. -/
theorem one_character_per_instruction_pointer :
    ((pointsAtStatus.begin OpenSink.mk).Ends [] (pointsAtStatus.begin OpenSink.mk) ∧
      ¬ pointsAtStatus.Calls .puts ∧ ¬ pointsAtStatus.Calls .putsp) ∧
    pointsAtStatus.accesses = [.read 0xFDFF, .read 0xFE00, .read 0x8000] ∧
    ∃ ch, pointsAtStatus.memory.keyboard.next? =
        some (ch, (pointsAtStatus.begin OpenSink.mk).machine.memory.keyboard) ∧
      (pointsAtStatus.begin OpenSink.mk).machine.memory.peek 0xFE02 = ch := by
  have hends : (pointsAtStatus.begin OpenSink.mk).Ends [] (pointsAtStatus.begin OpenSink.mk) :=
    .done (o := .running) (by decide +kernel)
  have hopcode : pointsAtStatus.fetched.toNat / 2 ^ 12 = 10 := by decide +kernel
  have hnone (t : TrapRoutine) : ¬ pointsAtStatus.Calls t := fun hcalls =>
    absurd (hopcode.symm.trans hcalls.opcode) (by decide)
  refine ⟨⟨hends, hnone .puts, hnone .putsp⟩, by decide +kernel, ?_⟩
  obtain ⟨htaken, -⟩ :=
    one_character_per_instruction _ _ [] _ hends (hnone .puts) (hnone .putsp)
  rcases htaken with hsame | ⟨ch, hn, -, ⟨-, hdata⟩ | ⟨hcalls, -⟩⟩
  · -- the slot is empty now
    exact absurd hsame (by decide +kernel)
  · exact ⟨ch, hn, hdata⟩
  · exact (hcalls.elim (hnone .getc) (hnone .input)).elim

end LC3
