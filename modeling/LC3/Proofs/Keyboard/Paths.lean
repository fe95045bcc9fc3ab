import LC3.Proofs.Keyboard.Source

/-!
# Two ways to a character

A program gets a character from a routine that waits for one, or it reads the status register until
a character is there and then the data register. The first way masks the character to its low byte
and the second does not, so in general they differ. They agree because of what the sources of
keyboards send: bytes, or ASCII.

* `Source.toNat_lt_of_mem_available` — whatever has happened, no character that was handed out or is
  still there reaches the limit of the source.
* `TrapRoutine.getc_of_next?`, `Memory.read_data_of_next?` — both ways hand out the first character
  and leave the same keyboard, the first way masking it.
* `input_paths_agree` — so on a keyboard with a source of its own both come to the same.
-/

namespace LC3

/-! ### What is available -/

theorem SourceAction.send_mem_of_mem_accepted {c : Word} {actions : List SourceAction}
    (h : c ∈ accepted actions) : .send c ∈ actions := by
  obtain ⟨a, ha, hc⟩ := List.mem_filterMap.1 h
  cases a with
  | send c' =>
    cases hc
    exact (List.takeWhile_prefix _).subset ha
  | interrupt | close => cases hc

/-- **No character reaches the limit of the source**, however the keyboard was used. -/
theorem Source.toNat_lt_of_mem_available {σ : Type} [ByteSink σ] {source : Source}
    {start : Cycle σ} {moves : List Move}
    (hstart : start.machine.memory.keyboard.available = [])
    (hmoves : Move.actions moves <+: source.actions) {c : Word}
    (hc : c ∈ Move.deliveredAll moves start ++
      (Move.performAll moves start).machine.memory.keyboard.available) :
    c.toNat < source.limit := by
  rw [Move.deliveredAll_append, hstart, List.nil_append] at hc
  split at hc
  · rw [Move.accepted_actions] at hc
    exact toNat_lt_of_send_mem (hmoves.subset (SourceAction.send_mem_of_mem_accepted hc))
  · cases hc

theorem Source.limit_le (source : Source) : source.limit ≤ 256 := by
  cases source with
  | nothing => exact Nat.zero_le _
  | stream script => exact Nat.le_refl _
  | terminal script => exact (by decide : 128 ≤ 256)

/-! ### The two ways -/

/-- Masking a character that is a byte does nothing. -/
theorem Word.ofByte_low {c : Word} (h : c.toNat < 256) : Word.ofByte c.low = c := by
  refine BitVec.eq_of_toNat_eq ?_
  rw [Word.toNat_ofByte, Word.toNat_low, Nat.mod_eq_of_lt h]

/-- The routine takes the first character, and masks it. -/
theorem TrapRoutine.getc_of_next? {σ : Type} [ByteSink σ] {h : Hardware} {c : Word}
    {rest : Keyboard} (hn : h.memory.keyboard.next? = some (c, rest)) (s : σ) :
    getc.run h s = ⟨.proceed, accept h c rest, s⟩ :=
  receive_character (Keyboard.read_of_next? hn) false s

/-- The status register answers that there is a character, and then the data register holds the
first one. -/
theorem Memory.read_data_of_next? {m : Memory} {c : Word} {rest : Keyboard}
    (hn : m.keyboard.next? = some (c, rest)) :
    (m.read statusAddress).1 = readyStatus ∧
      ((m.read statusAddress).2.read dataAddress).1 = c ∧
      ((m.read statusAddress).2.read dataAddress).2.keyboard = rest := by
  obtain ⟨hanswer, hpeek, hrest⟩ := read_status_of_next? rfl hn
  have hdata : (m.read statusAddress).2.read dataAddress =
      ((m.read statusAddress).2.peek dataAddress, (m.read statusAddress).2) :=
    read_of_ne _ (by decide)
  refine ⟨hanswer, ?_, ?_⟩
  · rw [hdata, hpeek]
    rfl
  · rw [hdata]
    exact hrest

/-- **The two input paths deliver the same.** Let a keyboard be made over a source and used in any
way. No character that it yields reaches the limit of its source. If a character is there, then on
any hardware with this keyboard the routine that waits for one puts into R0 the value `c` that the
data register holds behind a look at the status register; either way exactly this character is gone,
and the same keyboard is left. -/
theorem input_paths_agree {σ : Type} [ByteSink σ] (source : Source) (start : Cycle σ)
    (moves : List Move) (hmoves : Move.actions moves <+: source.actions) :
    let made := start.onKeyboard fun _ => source.keyboard
    let k := (Move.performAll moves made).machine.memory.keyboard
    (∀ c ∈ Move.deliveredAll moves made ++ k.available, c.toNat < source.limit) ∧
      ∀ (h : Hardware) (s : σ), h.memory.keyboard = k → k.available ≠ [] →
        ∃ c rest, k.available = c :: rest.available ∧
          rest.isOpen = k.isOpen ∧ rest.interrupted = k.interrupted ∧
          TrapRoutine.getc.run h s =
            ⟨.proceed, ⟨h.registers.set 0 c, h.memory.connect rest⟩, s⟩ ∧
          (h.memory.read 0xFE00).1 = 0x8000 ∧
          ((h.memory.read 0xFE00).2.read 0xFE02).1 = c ∧
          ((h.memory.read 0xFE00).2.read 0xFE02).2.keyboard = rest := by
  intro made k
  have hstart : made.machine.memory.keyboard.available = [] := source.available_keyboard
  have hlimit : ∀ c ∈ Move.deliveredAll moves made ++ k.available, c.toNat < source.limit :=
    fun c hc => Source.toNat_lt_of_mem_available hstart hmoves hc
  refine ⟨hlimit, ?_⟩
  intro h s hk hne
  cases hn : k.next? with
  | none => exact absurd ((Keyboard.next?_eq_none_iff k).1 hn) hne
  | some next =>
    obtain ⟨c, rest⟩ := next
    obtain ⟨havailable, hopen, hflag⟩ := Keyboard.available_of_next? hn
    -- the character is available, and so it is a byte
    have hmem : c ∈ k.available := by
      rw [havailable]
      exact List.mem_cons_self
    have hbyte : c.toNat < 256 :=
      Nat.lt_of_lt_of_le (hlimit c (List.mem_append_right _ hmem)) source.limit_le
    rw [← hk] at hn
    refine ⟨c, rest, havailable, hopen, hflag, ?_, Memory.read_data_of_next? hn⟩
    rw [TrapRoutine.getc_of_next? hn]
    unfold TrapRoutine.accept
    rw [Word.ofByte_low hbyte]

/-- A stream has sent a zero byte, which somebody has looked for, and a byte that is not ASCII. -/
def zeroInSlot : List Move := [.send 0x00, .access .poll, .send 0xC3]

theorem input_paths_agree_zeroInSlot :
    let source := Source.stream [.ok [0x00, 0xC3]]
    let start := (Machine.initial .disconnected).ready (Recorded.start OpenSink.mk)
    let made := start.onKeyboard fun _ => source.keyboard
    let now := Move.performAll zeroInSlot made
    let h := now.machine.toHardware
    Move.actions zeroInSlot <+: source.actions ∧ h.memory.keyboard.available = [0x00, 0xC3] ∧
      ∃ c rest, [0x00, 0xC3] = c :: Keyboard.available rest ∧
        TrapRoutine.getc.run h now.sink =
          ⟨.proceed, ⟨h.registers.set 0 c, h.memory.connect rest⟩, now.sink⟩ ∧
        ((h.memory.read 0xFE00).2.read 0xFE02).1 = c :=
  have hmoves : Move.actions zeroInSlot <+: (Source.stream [.ok [0x00, 0xC3]]).actions :=
    ⟨[], rfl⟩
  have hne : [0x00, 0xC3] ≠ ([] : List Word) := List.cons_ne_nil _ _
  have ⟨c, rest, havailable, _, _, hgetc, _, hdata, _⟩ :=
    (input_paths_agree (.stream [.ok [0x00, 0xC3]])
      ((Machine.initial .disconnected).ready (Recorded.start OpenSink.mk)) zeroInSlot
      hmoves).2 _ _ rfl hne
  ⟨hmoves, rfl, c, rest, havailable, hgetc, hdata⟩

end LC3
