import LC3.Proofs.Checked.Hardware
import LC3.Proofs.Course
import LC3.Proofs.Keyboard.Conservation

/-!
# Nothing panics

What is left of the machine is checked here as well: images are cut into pairs of bytes and copied
into a part of memory that ends at its top, routines find their operand in R0, and a cycle puts
together the line of the trace before it knows whether the instruction is valid. Cycles, calls and
whole histories are then sequences of checked parts.

As before there is one lemma for each function, and all of them together are `never_panics`: on any
machine, with any image, keyboard and console, the checked program never stops before its time, and
it does what the unchecked one does. All of the conditions that it asks for are thus properties of
the machine: selectors of registers are below eight, addresses are below the size of memory, fields
lie within the word, differences are not negative, and no word is shifted by its width.
-/

namespace LC3.Checked

/-! ### Images -/

/-- The byte at an index of a chunk. -/
def byteAt (chunk : List Byte) (i : ℕ) : Except Panic Byte :=
  match chunk[i]? with
  | some b => .ok b
  | none => .error (.index i chunk.length)

def wordOf (chunk : List Byte) : Except Panic Word := do
  return .ofBytes (← byteAt chunk 0) (← byteAt chunk 1)

/-- A byte sequence in chunks of two; a byte that is left over is in none of them. -/
def chunks : List Byte → List (List Byte)
  | high :: low :: rest => [high, low] :: chunks rest
  | _ => []

/-- Copies chunks to the cells from one on, up to the top of memory. -/
def copy : Memory → ℕ → List (List Byte) → Except Panic Memory
  | m, _, [] => .ok m
  | m, index, chunk :: rest =>
    if index = 65536 then .ok m
    else do
      copy (← poke m index (← wordOf chunk)) (index + 1) rest

/-- What a loader says about an image, given the bytes behind its origin and the memory that holds
it. -/
def report (origin : Word) (payload : List Byte) (memory : Memory) : Loaded :=
  let capacity := 65536 - origin.toNat
  let available := (chunks payload).length
  let placement : Placement := ⟨origin, min available capacity, capacity < available⟩
  let log :=
    (if payload.length % 2 = 1 then [Event.oddByte origin] else []) ++
      (if placement.truncated then [.cutOff origin available capacity] else []) ++
      [.loaded placement]
  ⟨placement, memory, log⟩

/-- Places the bytes behind an origin. -/
def place (m : Memory) (origin : Word) (payload : List Byte) : Except Panic Loaded := do
  -- there is a part of memory from the origin on
  require (origin.toNat ≤ 65536) (.index origin.toNat 65536)
  return report origin payload (← copy m origin.toNat (chunks payload))

/-- Loads the image that a byte sequence holds. -/
def load (m : Memory) : List Byte → Except Panic (Except LoadError Loaded)
  | high :: low :: payload => do
    return .ok (← place m (.ofBytes high low) payload)
  | _ => .ok (.error .missingOrigin)

/-- The chunks are those of the words, and one byte more is left over if their number is odd. -/
theorem length_chunks : ∀ payload : List Byte,
    (chunks payload).length = (Image.pairs payload).1.length ∧
      ((Image.pairs payload).2.isSome = true ↔ payload.length % 2 = 1)
  | [] => ⟨rfl, by simp⟩
  | [last] => ⟨rfl, by simp⟩
  | high :: low :: rest => by
    obtain ⟨hlength, hodd⟩ := length_chunks rest
    rw [Image.pairs_cons_cons]
    refine ⟨congrArg Nat.succ hlength, hodd.trans ?_⟩
    rw [List.length_cons, List.length_cons]
    omega

theorem wordOf_pair (high low : Byte) : wordOf [high, low] = .ok (.ofBytes high low) :=
  rfl

/-- **A copy stops at the top of memory**, before there is no cell any more. -/
theorem copy_eq (m : Memory) (a : Word) : ∀ payload : List Byte,
    copy m a.toNat (chunks payload) = .ok (m.fill a (Image.pairs payload).1)
  | [] => rfl
  | [_] => rfl
  | high :: low :: rest => by
    have hcell : a.toNat ≠ 65536 := Nat.ne_of_lt a.isLt
    rw [Image.pairs_cons_cons]
    unfold chunks copy Memory.fill
    rw [if_neg hcell, wordOf_pair, ok_bind, poke_eq, ok_bind]
    by_cases htop : a = 0xFFFF
    · -- the next index is the size of memory
      subst htop
      rw [if_pos rfl]
      cases chunks rest with
      | nil => rfl
      | cons chunk rest => rfl
    · rw [if_neg htop, ← Memory.toNat_succ_of_ne_top htop]
      exact copy_eq _ (a + 1) rest

theorem place_eq (m : Memory) (image : Image) (payload : List Byte)
    (hpairs : Image.pairs payload = (image.words, image.trailing)) :
    place m image.origin payload = .ok ⟨image.placement, m.place image, image.placingLog⟩ := by
  have horigin : image.origin.toNat ≤ 65536 := Nat.le_of_lt image.origin.isLt
  obtain ⟨hlength, hodd⟩ := length_chunks payload
  rw [hpairs] at hlength hodd
  unfold place
  rw [require_bind horigin, copy_eq, hpairs, ok_bind]
  unfold report Image.placingLog
  simp only [hlength, hodd]
  rfl

/-- **Every byte sequence is loaded or refused.** -/
theorem load_eq (m : Memory) (bytes : List Byte) : load m bytes = .ok (m.load bytes) := by
  match bytes with
  | [] => rfl
  | [_] => rfl
  | high :: low :: payload =>
    have hplace := place_eq m ⟨.ofBytes high low, (Image.pairs payload).1, (Image.pairs payload).2⟩
      payload rfl
    show (place m (.ofBytes high low) payload >>= fun loaded => Except.ok (Except.ok loaded)) = _
    rw [hplace, ok_bind, Memory.load_cons_cons]

/-! ### Routines -/

section Machine

variable {σ : Type} [ByteSink σ]

def emitString (bytesOf : Word → Except Panic (List Byte)) (h : Hardware) (s : σ) :
    Except Panic (TrapRun σ) := do
  let collected ← string bytesOf h.memory (← get h.registers 0) []
  return TrapRoutine.emit collected.1 .proceed { h with memory := collected.2 } s

/-- The part of a routine up to the point where it needs a key, or the whole of it. -/
def beginRoutine (h : Hardware) (s : σ) : TrapRoutine → Except Panic (TrapRun σ)
  | .getc => .ok ⟨.awaitKey false, h, s⟩
  | .out => do
    let w ← get h.registers 0
    return TrapRoutine.emit [w.low] .proceed h s
  | .puts => emitString plainBytes h s
  | .input => .ok (TrapRoutine.emit TrapRoutine.prompt (.awaitKey true) h s)
  | .putsp => emitString packedBytes h s
  | .halt => .ok (TrapRoutine.emit TrapRoutine.farewell .stop h s)

/-- The part of a routine behind the point where it needs a key. -/
def receive (echo : Bool) (h : Hardware) (s : σ) : Except Panic (TrapRun σ) :=
  match h.memory.keyboard.read with
  | (.character c, rest) => do
    let registers ← set h.registers 0 (c &&& 0xFF)
    let accepted : Hardware := ⟨registers, h.memory.connect rest⟩
    let shown ← get registers 0
    return if echo then TrapRoutine.emit [shown.low] .proceed accepted s
      else ⟨.proceed, accepted, s⟩
  | (.failed fault, _) => .ok ⟨.fail fault, h, s⟩
  | (.waiting, _) => .ok ⟨.awaitKey echo, h, s⟩

theorem get_zero (regs : Registers) : get regs 0 = .ok (regs.get 0) :=
  get_eq regs 0

theorem set_zero (regs : Registers) (value : Word) : set regs 0 value = .ok (regs.set 0 value) :=
  set_eq regs 0 value

/-- The bytes of a string are emitted together, whatever has been read. -/
theorem emit_collected (bytes : Word → List Byte) (read : List Word × Memory) (h : Hardware) (s : σ) :
    (pure (TrapRoutine.emit ([] ++ read.1.flatMap bytes, read.2).1 .proceed
      { h with memory := ([] ++ read.1.flatMap bytes, read.2).2 } s) : Except Panic (TrapRun σ)) =
      .ok (TrapRoutine.emit (read.1.flatMap bytes) .proceed { h with memory := read.2 } s) :=
  rfl

theorem emitString_eq {bytesOf : Word → Except Panic (List Byte)} {bytes : Word → List Byte}
    (hbytes : ∀ w, bytesOf w = .ok (bytes w)) (h : Hardware) (s : σ) :
    emitString bytesOf h s = .ok (TrapRoutine.emitString bytes h s) := by
  unfold emitString
  rw [get_zero, ok_bind, string_eq hbytes, ok_bind, TrapRoutine.emitString_eq]
  exact emit_collected bytes _ h s

theorem beginRoutine_eq (t : TrapRoutine) (h : Hardware) (s : σ) :
    beginRoutine h s t = .ok (t.begin h s) := by
  cases t with
  | getc | input | halt => rfl
  | out =>
    show (get h.registers 0 >>= _) = _
    rw [get_zero]
    rfl
  | puts =>
    have hplain : ∀ w, plainBytes w = .ok (TrapRoutine.plainBytes w) := fun _ => rfl
    exact emitString_eq hplain h s
  | putsp => exact emitString_eq packedBytes_eq h s

theorem receive_eq (echo : Bool) (h : Hardware) (s : σ) :
    receive echo h s = .ok (TrapRoutine.receive echo h s) := by
  -- the mask leaves the low byte of a key, which is also what is shown
  have hmask : ∀ c : Word, c &&& 0xFF = .ofByte c.low := by
    intro c
    apply BitVec.eq_of_toNat_eq
    rw [Word.toNat_ofByte, Word.toNat_low, BitVec.toNat_and]
    exact Nat.and_two_pow_sub_one_eq_mod c.toNat 8
  have hshown : ∀ c : Word, (Word.ofByte c.low).low = c.low := by
    intro c
    apply BitVec.eq_of_toNat_eq
    rw [Word.toNat_low, Word.toNat_ofByte, Word.toNat_low, Nat.mod_mod]
  unfold receive TrapRoutine.receive
  rcases h.memory.keyboard.read with ⟨key, rest⟩
  cases key with
  | waiting => rfl
  | failed fault => rfl
  | character c =>
    show (set h.registers 0 (c &&& 0xFF) >>= _) = _
    rw [set_zero, ok_bind, get_zero, ok_bind, hmask, Registers.get_set_self, hshown]
    rfl

/-! ### Cycles -/

/-- Executes the instruction that was fetched from an address, as far as it gets without a key. -/
def dispatch (address : Word) (i : Instruction) (h : Hardware) (s : σ) :
    Except Panic (Cycle σ) := do
  let log := [.fetched address i]
  let invalid : Except Panic (Cycle σ) := do
    return .failed ⟨h, .running⟩ s log (.invalidOpcode ((← opcode i).setWidth 4) address)
  match ← operation? i with
  | none => invalid
  | some o =>
    if o = .trap then
      let vector ← trapVector i
      match TrapRoutine.ofNat? vector.toNat with
      | some routine => return .ofTrapRun address log (← beginRoutine h s routine)
      | none => return .failed ⟨h, .running⟩ s log (.invalidTrap vector address)
    else
      match execute i h o with
      | some executed => return ⟨.done .running, ⟨← executed, .running⟩, s, log⟩
      | none => invalid

def beginCycle (m : Machine) (s : σ) : Except Panic (Cycle σ) :=
  match m.status with
  | .halted => .ok ⟨.done .halted, m, s, []⟩
  | .running =>
    if m.memory.keyboard.interrupted then .ok (.failed m s [] .interrupted)
    else do
      let fetched ← read m.memory m.registers.pc
      -- the trace shows the instruction, valid or not
      let _ ← describe ⟨fetched.1⟩
      dispatch m.registers.pc ⟨fetched.1⟩ ⟨m.registers.advance, fetched.2⟩ s

def resume (c : Cycle σ) : Except Panic (Cycle σ) :=
  match c.phase with
  | .done _ => .ok c
  | .awaitKey address echo => do
    return .ofTrapRun address c.log (← receive echo c.machine.toHardware c.sink)

def step (m : Machine) (s : σ) : Except Panic (Cycle σ) := do
  resume (← beginCycle m s)

/-- The part of a cycle that comes next. -/
def turn (c : Cycle σ) : Except Panic (Cycle σ) :=
  match c.phase with
  | .done _ => beginCycle c.machine c.sink
  | .awaitKey _ _ => resume c

/-- **Every word is executed or refused.** -/
theorem dispatch_eq (address : Word) (i : Instruction) (h : Hardware) (s : σ) :
    dispatch address i h s = .ok (Machine.dispatch address i h s) := by
  -- the opcode is computed as a byte, and reported as four bits
  have hopcode : (i.opcode.setWidth 8).setWidth 4 = i.opcode := by
    have hle : 4 ≤ 8 := by decide
    rw [BitVec.setWidth_setWidth_of_le _ hle, BitVec.setWidth_eq]
  unfold dispatch
  rw [operation?_eq, ok_bind]
  -- there is always an operation, and four things can come of it
  refine Machine.dispatch_cases (i := i) (h := h) ?execute ?trap ?badTrap ?invalid
  case execute =>
    intro h' hx
    have hexecute := execute_eq i h
    rw [hx] at hexecute
    simp only [if_neg (Instruction.operation_ne_trap hx), hexecute, Machine.dispatch_execute hx]
    rfl
  case trap =>
    intro t ho ht
    have hroutine : TrapRoutine.ofNat? i.trapVector.toNat = some t := ht
    simp only [if_pos ho, trapVector_eq, ok_bind, hroutine, beginRoutine_eq,
      Machine.dispatch_trap ho ht]
    rfl
  case badTrap =>
    intro ho ht
    have hroutine : TrapRoutine.ofNat? i.trapVector.toNat = none := ht
    simp only [if_pos ho, trapVector_eq, ok_bind, hroutine, Machine.dispatch_badTrap ho ht]
    rfl
  case invalid =>
    intro ho
    -- these two operations are known, but `execute` has nothing for them
    have hne : i.operation ≠ .trap := by
      rcases ho with ho | ho <;> rw [ho] <;> decide
    have hexecute := execute_eq i h
    rw [(h.execute?_eq_none_iff i).2 (ho.imp_right .inl)] at hexecute
    simp only [if_neg hne, hexecute, Option.map_none, opcode_eq, ok_bind, hopcode,
      Machine.dispatch_invalid ho]
    rfl

theorem beginCycle_eq (m : Machine) (s : σ) : beginCycle m s = .ok (m.begin s) := by
  unfold beginCycle
  cases hs : m.status with
  | halted => rw [Machine.begin_halted hs]
  | running =>
    cases hi : m.memory.keyboard.interrupted with
    | true =>
      rw [Machine.begin_interrupted hs hi]
      rfl
    | false =>
      rw [Machine.begin_running hs hi]
      show (read m.memory m.registers.pc >>= _) = _
      rw [read_eq, ok_bind, describe_eq, ok_bind, dispatch_eq]
      rfl

theorem resume_eq (c : Cycle σ) : resume c = .ok c.resume := by
  unfold resume Cycle.resume
  cases c.phase with
  | done o => rfl
  | awaitKey address echo =>
    show (receive echo c.machine.toHardware c.sink >>= _) = _
    rw [receive_eq]
    rfl

theorem step_eq (m : Machine) (s : σ) : step m s = .ok (m.step s) := by
  unfold step
  rw [beginCycle_eq, ok_bind, resume_eq]
  rfl

theorem turn_eq (c : Cycle σ) : turn c = .ok c.turn := by
  unfold turn Cycle.turn
  cases c.phase with
  | done o => exact beginCycle_eq c.machine c.sink
  | awaitKey address echo => exact resume_eq c

/-! ### Runs -/

/-- Runs a machine for at most the given number of cycles. -/
def runFor : ℕ → Machine → σ → Except Panic (Run σ)
  | cycles, m, s =>
    match m.status, cycles with
    | .halted, _ => .ok ⟨.halted, m, s, []⟩
    | .running, 0 => .ok ⟨.unfinished, m, s, []⟩
    | .running, cycles + 1 => do
      let c ← step m s
      match c.phase with
      | .done (.failed fault) => return ⟨.failed fault, c.machine, c.sink, c.log⟩
      | .done _ => return (← runFor cycles c.machine c.sink).behind c.log
      | .awaitKey address echo => return ⟨.waiting address echo, c.machine, c.sink, c.log⟩

/-- Executes one part of a cycle behind each change of the keyboard. -/
def through : Changes → Cycle σ → Except Panic (Cycle σ)
  | [], c => .ok c
  | f :: fs, c => do
    through fs (← turn (c.onKeyboard f))

/-- The memory behind an access. -/
def access (m : Memory) : Access → Except Panic Memory
  | .read a => do
    return (← read m a).2
  | .write a value => poke m a.toNat value
  | x => .ok (x.perform m)

/-- The machine, somewhere in a cycle, behind a move. -/
def move (c : Cycle σ) : Move → Except Panic (Cycle σ)
  | .access x => do
    let m ← access c.machine.memory x
    return c.onMemory fun _ => m
  | .load bytes => do
    match ← load c.machine.memory bytes with
    | .ok loaded => return c.onMemory fun _ => loaded.memory
    | .error _ => return c
  | .turn => turn c
  | x => .ok (x.perform c)

def moves : List Move → Cycle σ → Except Panic (Cycle σ)
  | [], c => .ok c
  | x :: xs, c => do
    moves xs (← move c x)

theorem runFor_eq (cycles : ℕ) (m : Machine) (s : σ) :
    runFor cycles m s = .ok (m.runFor cycles s) := by
  induction cycles generalizing m s with
  | zero =>
    unfold runFor
    cases hs : m.status with
    | halted => rw [Machine.runFor_halted 0 hs]
    | running => rw [Machine.runFor_zero hs]
  | succ cycles ih =>
    unfold runFor
    cases hs : m.status with
    | halted => rw [Machine.runFor_halted _ hs]
    | running =>
      rw [Machine.runFor_succ cycles hs]
      show (step m s >>= _) = _
      rw [step_eq, ok_bind]
      cases hp : (m.step s).phase with
      | awaitKey address echo =>
        simp only [hp]
        rfl
      | done o =>
        cases o with
        | failed fault =>
          simp only [hp]
          rfl
        | running | halted =>
          simp only [hp, ih, ok_bind]
          rfl

theorem through_eq (fs : Changes) (c : Cycle σ) : through fs c = .ok (c.through fs) := by
  induction fs generalizing c with
  | nil => rfl
  | cons f fs ih =>
    show (turn (c.onKeyboard f) >>= fun d => through fs d) = _
    rw [turn_eq, ok_bind]
    exact ih (c.onKeyboard f).turn

omit [ByteSink σ] in
theorem access_eq (m : Memory) (x : Access) : access m x = .ok (x.perform m) := by
  cases x with
  | read a =>
    show (read m a >>= _) = _
    rw [read_eq]
    rfl
  | write a value => exact poke_eq m a value
  | poll | take | receive => rfl

theorem move_eq (c : Cycle σ) (x : Move) : move c x = .ok (x.perform c) := by
  cases x with
  | send _ | close | interrupt _ => rfl
  | access x =>
    show (access c.machine.memory x >>= _) = _
    rw [access_eq]
    rfl
  | load bytes =>
    show (load c.machine.memory bytes >>= _) =
      .ok (c.onMemory fun m => m.afterLoading bytes)
    unfold Memory.afterLoading Cycle.onMemory
    rw [load_eq, ok_bind]
    cases hload : c.machine.memory.load bytes with
    | ok loaded =>
      simp only [hload]
      rfl
    | error e =>
      -- what is refused leaves the cycle as it is
      simp only [hload]
      rfl
  | turn => exact turn_eq c

theorem moves_eq (xs : List Move) (c : Cycle σ) : moves xs c = .ok (Move.performAll xs c) := by
  induction xs generalizing c with
  | nil => rfl
  | cons x xs ih =>
    show (move c x >>= fun d => moves xs d) = _
    rw [move_eq, ok_bind]
    exact ih (x.perform c)

end Machine

/-- **Nothing panics.** On every machine, whatever its registers and its memory hold and whatever is
behind its keyboard, and on every console, the checked program comes to what the machine comes to:
loading a byte sequence, one cycle, a number of cycles, calls that execute one or all instructions
while the keyboard changes in any way, and any history of loads, accesses, changes of the keyboard
and parts of cycles. The line of a trace is put together for every word. -/
theorem never_panics {σ : Type} [ByteSink σ] (m : Machine) (s : σ) :
    (∀ bytes, load m.memory bytes = .ok (m.memory.load bytes)) ∧
      step m s = .ok (m.step s) ∧
      (∀ cycles, runFor cycles m s = .ok (m.runFor cycles s)) ∧
      (∀ fs, through fs (m.ready s) = .ok ((m.ready s).through fs)) ∧
      (∀ fs c, m.Steps s fs c → through fs (m.ready s) = .ok c) ∧
      (∀ fs r, m.Executes s fs r → ∃ c, through fs (m.ready s) = .ok c ∧
        c.machine = r.machine ∧ c.sink = r.sink) ∧
      (∀ xs, moves xs (m.ready s) = .ok (Move.performAll xs (m.ready s))) ∧
      ∀ i : Instruction, describe i = .ok i.describe := by
  have hthrough : ∀ fs, through fs (m.ready s) = .ok ((m.ready s).through fs) := by
    intro fs
    exact through_eq fs (m.ready s)
  refine ⟨load_eq m.memory, step_eq m s, fun n => runFor_eq n m s, hthrough, ?step, ?execute,
    fun xs => moves_eq xs (m.ready s), describe_eq⟩
  case step =>
    intro fs c hc
    rw [hthrough, ← hc.eq_through]
  case execute =>
    intro fs r hr
    obtain ⟨hmachine, hsink⟩ := hr.through
    exact ⟨_, hthrough fs, hmachine.symm, hsink.symm⟩

end LC3.Checked
