import LC3.Console.Devices
import LC3.Proofs.FailedCalls

/-!
# Strings in memory and on the console

A program keeps a string as words that end with a zero, and there are two ways to do so. A
**plain** string has a byte in each word, and what stands in the high half of the word does not
matter. A **packed** one has two bytes in each word, the low one first; if the number of bytes is
odd, the last word has a zero in its high half. The two routines that print a string are the
inverses of these two ways to store one, as long as no byte of it is zero: such a byte may end the
string, and in the high half of a word of a packed one it is passed over.

`Memory.HoldsString m a words` says that the words lie in memory from `a` on, with the zero behind
them. The addresses wrap, so a string may begin at the top of memory and end at its bottom. None of
the cells is the status register, hence reading the string changes nothing
(`HoldsString.readString`).

* `Word.pack` — the words of a packed string, and `Word.pack_packed` what their bytes are.
* `Recorded.flushes_emit` — a message is one flush, even if there are no bytes in it.
* `printing_inverts_storage` — both routines, for every string and every address.
-/

namespace LC3

/-! ### Words that hold bytes -/

namespace Word

/-- The words of a packed string, two bytes in each. -/
def pack : List Byte → List Word
  | [] => []
  | [last] => [ofByte last]
  | low :: high :: rest => ofBytes high low :: pack rest

theorem length_pack (b : List Byte) : (pack b).length = (b.length + 1) / 2 := by
  fun_induction pack b with
  | case1 => rfl
  | case2 last => exact (Nat.div_self Nat.two_pos).symm
  | case3 low high rest ih =>
    rw [List.length_cons, ih, List.length_cons, List.length_cons]
    omega

/-- The low half of a word is always a byte of the string. -/
theorem low_mem_of_mem_pack {b : List Byte} {w : Word} (hw : w ∈ pack b) : w.low ∈ b := by
  fun_induction pack b with
  | case1 => cases hw
  | case2 last =>
    obtain rfl := List.mem_singleton.1 hw
    rw [low_ofByte]
    exact List.mem_singleton_self last
  | case3 low high rest ih =>
    rcases List.mem_cons.1 hw with rfl | hrest
    · rw [low_ofBytes]
      exact List.mem_cons_self
    · exact List.mem_cons_of_mem _ (List.mem_cons_of_mem _ (ih hrest))

/-- **The bytes of a packed string**, word by word, are the string. -/
theorem pack_packed {b : List Byte} (hb : 0 ∉ b) :
    (pack b).flatMap TrapRoutine.packedBytes = b := by
  fun_induction pack b with
  | case1 => rfl
  | case2 last =>
    -- the half that is not used is zero, and it is passed over
    have hword : TrapRoutine.packedBytes (ofByte last) = [last] := by
      unfold TrapRoutine.packedBytes
      rw [if_pos (high_ofByte last), low_ofByte]
    rw [List.flatMap_singleton, hword]
  | case3 low high rest ih =>
    rw [List.mem_cons, List.mem_cons, not_or, not_or] at hb
    obtain ⟨-, hhigh, hrest⟩ := hb
    have hword : TrapRoutine.packedBytes (ofBytes high low) = [low, high] := by
      unfold TrapRoutine.packedBytes
      rw [high_ofBytes, low_ofBytes, if_neg (Ne.symm hhigh)]
    rw [List.flatMap_cons, hword, ih hrest]
    rfl

/-- Words whose low halves are bytes of a string without a zero are not zero. -/
theorem zero_notMem {words : List Word} {b : List Byte} (hlow : ∀ w ∈ words, w.low ∈ b)
    (hb : 0 ∉ b) : 0 ∉ words :=
  fun h => hb (hlow 0 h)

end Word

/-! ### Words in memory -/

namespace Memory

/-- The cells from an address on, which wraps, hold words and then a zero. The status register is
not among them. -/
structure HoldsString (m : Memory) (a : Word) (words : List Word) : Prop where
  plain : ∀ i ≤ words.length, a + BitVec.ofNat 16 i ≠ 0xFE00
  word : ∀ i (hi : i < words.length), m.peek (a + BitVec.ofNat 16 i) = words[i]
  stop : m.peek (a + BitVec.ofNat 16 words.length) = 0

variable {m : Memory} {a : Word} {words : List Word}

theorem HoldsString.swept (h : m.HoldsString a words) {i : ℕ} (hi : i < words.length) :
    m.swept a i = words[i] := by
  rw [swept_eq_peek m a fun j hj => h.plain j (Nat.le_of_lt (Nat.lt_of_le_of_lt hj hi))]
  exact h.word i hi

/-- The string ends at the zero, not before it. -/
theorem HoldsString.endsAt (h : m.HoldsString a words) (hne : 0 ∉ words) :
    m.EndsAt a words.length where
  zero := by
    rw [swept_eq_peek m a h.plain]
    exact h.stop
  ne_zero i hi := by
    rw [h.swept hi]
    intro hzero
    exact hne (hzero ▸ List.getElem_mem hi)

/-- **Reading a string** finds its words, and changes nothing. -/
theorem HoldsString.readString (h : m.HoldsString a words) (hne : 0 ∉ words) :
    m.readString a = (words, m) := by
  have hwords : (List.range words.length).map (m.swept a) = words := by
    refine List.ext_getElem (by rw [List.length_map, List.length_range]) fun i hi hi' => ?_
    rw [List.getElem_map, List.getElem_range]
    exact h.swept hi'
  have hmemory : m.sweep a (words.length + 1) = m :=
    sweep_eq_self m a fun i hi => h.plain i (Nat.le_of_lt_succ hi)
  rw [(h.endsAt hne).readString_eq, hwords, hmemory]

end Memory

/-! ### Messages -/

namespace Recorded

variable {σ : Type} [ByteSink σ]

/-- However often a sink is asked to take the rest of a buffer, it is not asked to flush. -/
theorem flushes_writeAll (bytes : List Byte) (r : Recorded σ) :
    (ByteSink.writeAll bytes r).2.flushes = r.flushes := by
  refine ByteSink.writeAll_induction
    (motive := fun _ (r : Recorded σ) r' => r'.2.flushes = r.flushes) ?nil ?fail ?goOn bytes r
  case nil => exact fun r => rfl
  case fail => exact fun bytes r e _ _ => flushes_write bytes r
  case goOn =>
    intro bytes r rest r' _ _ ih
    exact ih.trans (flushes_write bytes r)

/-- A message that has become visible was written as a whole and then flushed. -/
theorem emit_eq_flush {message : List Byte} {r : Recorded σ}
    (hok : (ByteSink.emit message r).1 = .ok ()) :
    ByteSink.emit message r = ByteSink.flush (ByteSink.writeAll message r).2 := by
  rcases hw : ByteSink.writeAll message r with ⟨answer, r'⟩
  cases answer with
  | ok _ => exact ByteSink.emit_of_written hw
  | error e =>
    rw [ByteSink.emit_of_unwritten hw] at hok
    cases hok

theorem flushes_emit {message : List Byte} {r : Recorded σ}
    (hok : (ByteSink.emit message r).1 = .ok ()) :
    (ByteSink.emit message r).2.flushes = r.flushes + 1 := by
  rw [emit_eq_flush hok, flushes_flush, flushes_writeAll]

/-- And nothing is left that one cannot see. -/
theorem unflushed_emit {message : List Byte} {r : Recorded σ}
    (hok : (ByteSink.emit message r).1 = .ok ()) : (ByteSink.emit message r).2.unflushed = [] := by
  have hflush := emit_eq_flush hok
  rw [hflush] at hok ⊢
  rw [unflushed_flush, hok]
  rfl

end Recorded

/-! ### The routines -/

namespace TrapRoutine

variable {σ : Type} [ByteSink σ] {t : TrapRoutine} {h : Hardware} {s : Recorded σ} {b : List Byte}

/-- A routine prints some bytes and does nothing else. -/
structure Prints (t : TrapRoutine) (h : Hardware) (s : Recorded σ) (b : List Byte) : Prop where
  flow : (t.run h s).flow = .proceed
  /-- Registers, memory and keyboard are what they were. -/
  hardware : (t.run h s).hardware = h
  output : (t.run h s).sink.output = s.output ++ b
  flushes : (t.run h s).sink.flushes = s.flushes + 1
  /-- All that was written can be seen. -/
  unflushed : (t.run h s).sink.unflushed = []
  /-- An instruction that calls the routine does the same, and the machine runs on behind it. -/
  call : ∀ m : Machine, m.Calls t → m.registers.advance = h.registers → m.memory = h.memory →
    m.step s = ⟨.done .running, ⟨h, .running⟩, (t.run h s).sink,
      [.fetched m.registers.pc ⟨m.fetched⟩]⟩

/-- **A routine that is one message** prints it, if the console takes it. -/
theorem prints_of_begin (hbegin : t.begin h s = emit b .proceed h s)
    (hok : (ByteSink.emit b s).1 = .ok ()) : t.Prints h s b := by
  have hemit : t.begin h s = ⟨.proceed, h, (ByteSink.emit b s).2⟩ :=
    hbegin.trans (emit_ok hok .proceed h)
  have hrun : t.run h s = ⟨.proceed, h, (ByteSink.emit b s).2⟩ := by
    unfold run
    rw [hemit]
    rfl
  constructor
  case flow => rw [hrun]
  case hardware => rw [hrun]
  case output =>
    rw [hrun]
    exact transmits_recorded.emit_ok trivial hok
  case flushes =>
    rw [hrun]
    exact Recorded.flushes_emit hok
  case unflushed =>
    rw [hrun]
    exact Recorded.unflushed_emit hok
  case call =>
    intro m hcalls hregisters hmemory
    have hbeginMachine : m.begin s = ⟨.done .running, ⟨h, .running⟩, (ByteSink.emit b s).2,
        [.fetched m.registers.pc ⟨m.fetched⟩]⟩ := by
      rw [hcalls.begin_eq s, hregisters, hmemory, hemit]
      rfl
    have hdone : (m.begin s).phase = .done .running := by rw [hbeginMachine]
    rw [Machine.step_eq_begin hdone, hbeginMachine, hrun]

/-- A string in memory is collected as it lies there. -/
theorem emitString_of_holds {words : List Word}
    (hw : h.memory.HoldsString (h.registers.get 0) words) (hne : 0 ∉ words)
    (bytesOf : Word → List Byte) (s : Recorded σ) :
    emitString bytesOf h s = emit (words.flatMap bytesOf) .proceed h s := by
  rw [emitString_eq, hw.readString hne]

end TrapRoutine

/-- **Printing a string is the inverse of storing it.** The bytes are not zero, the console takes
them, and R0 is the address of the first word; the addresses wrap. -/
theorem printing_inverts_storage {σ : Type} [ByteSink σ] (b : List Byte) (hb : 0 ∉ b)
    (h : Hardware) (s : Recorded σ) (hok : (ByteSink.emit b s).1 = .ok ()) :
    (Word.pack b).length = (b.length + 1) / 2 ∧
      (h.memory.HoldsString (h.registers.get 0) (Word.pack b) →
        TrapRoutine.putsp.Prints h s b) ∧
      ∀ words : List Word, words.map Word.low = b →
        h.memory.HoldsString (h.registers.get 0) words → TrapRoutine.puts.Prints h s b := by
  refine ⟨Word.length_pack b, fun hw => ?_, fun words hwords hw => ?_⟩
  · have hne : 0 ∉ Word.pack b := Word.zero_notMem (fun _ => Word.low_mem_of_mem_pack) hb
    refine TrapRoutine.prints_of_begin ?_ hok
    calc TrapRoutine.putsp.begin h s
        = TrapRoutine.emit ((Word.pack b).flatMap TrapRoutine.packedBytes) .proceed h s :=
          TrapRoutine.emitString_of_holds hw hne _ s
      _ = TrapRoutine.emit b .proceed h s := by rw [Word.pack_packed hb]
  · have hlow (w : Word) (hmem : w ∈ words) : w.low ∈ b := hwords ▸ List.mem_map_of_mem hmem
    refine TrapRoutine.prints_of_begin ?_ hok
    calc TrapRoutine.puts.begin h s
        = TrapRoutine.emit (words.flatMap TrapRoutine.plainBytes) .proceed h s :=
          TrapRoutine.emitString_of_holds hw (Word.zero_notMem hlow hb) _ s
      _ = TrapRoutine.emit b .proceed h s := by
          rw [← hwords, List.map_eq_flatMap]
          rfl

/-- A packed string from the last address on, and a plain one from `0x10` on whose high halves are
not all zero. -/
def holdsTwoStrings (a : Word) : Hardware where
  registers := Registers.initial.set 0 a
  memory := ((Memory.cleared .disconnected).write 0xFFFF 0x6261).write 0 0x63
    |>.fill 0x10 [0x1261, 0x62, 0xFF63]

/-- Both of them are the same three bytes; the packed one wraps, and the half of a word is left. -/
theorem printing_inverts_storage_three :
    let b := asciiBytes "abc"
    let s := Recorded.start OpenSink.mk
    (0 ∉ b ∧ (ByteSink.emit b s).1 = .ok ()) ∧
      (holdsTwoStrings 0xFFFF).memory.HoldsString 0xFFFF (Word.pack b) ∧
      TrapRoutine.putsp.Prints (holdsTwoStrings 0xFFFF) s b ∧
      (holdsTwoStrings 0x10).memory.HoldsString 0x10 [0x1261, 0x62, 0xFF63] ∧
      TrapRoutine.puts.Prints (holdsTwoStrings 0x10) s b := by
  intro b s
  have hb : 0 ∉ b := by decide +kernel
  have hok : (ByteSink.emit b s).1 = .ok () := by decide +kernel
  have hpacked : (holdsTwoStrings 0xFFFF).memory.HoldsString 0xFFFF (Word.pack b) :=
    ⟨by decide +kernel, by decide +kernel, by decide +kernel⟩
  have hplain : (holdsTwoStrings 0x10).memory.HoldsString 0x10 [0x1261, 0x62, 0xFF63] :=
    ⟨by decide +kernel, by decide +kernel, by decide +kernel⟩
  refine ⟨⟨hb, hok⟩, hpacked, ?_, hplain, ?_⟩
  · exact (printing_inverts_storage b hb (holdsTwoStrings 0xFFFF) s hok).2.1 hpacked
  · exact (printing_inverts_storage b hb (holdsTwoStrings 0x10) s hok).2.2 _ (by decide) hplain

-- a string without bytes is a message as well
example :
    let r := TrapRoutine.puts.run (Hardware.cleared .disconnected) (Recorded.start OpenSink.mk)
    r.flow = .proceed ∧ r.sink.output = [] ∧ r.sink.flushes = 1 := by
  decide +kernel

end LC3
