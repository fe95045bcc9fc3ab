import LC3.Proofs.Keyboard.Interruption

/-!
# What is typed on a terminal

A terminal is read until a read fails or CTRL-C is pressed, whichever comes first. What its reads
return up to that point says everything about the keyboard: the keys that were pressed are its
characters, in order, and the end says whether the flag is set and what is logged. Here both are put
down as one would explain them, without the loop that reads: `Report.IsControlC` and `Stops` say
what ends the source, and `Report.image?` is the table of keys and their characters.

The table does not know of CTRL-C, which is in it like any other press of the key with a `c`. That
it is not sent as a letter is a matter of where the source ends: a report that does not end it is
answered by its image (`Report.response_eq`), and so are all the reports before the first that does
(`listen_before`).

* `exists_first_stop` — a script with an end in it has a first one.
* `listen_stop` — what a source does on a script that is cut at its end.
* `terminal_meaning` — the keyboard when all of this has happened, and beside a program that uses
  it meanwhile.
-/

namespace LC3

namespace Terminal

/-! ### Keys and their meaning -/

/-- The key with a `c` is pressed while the control key is held, whatever other keys are. -/
def Report.IsControlC (r : Report) : Prop :=
  ∃ shift alt, r = .key ⟨.char 'c', shift, true, alt, .press⟩

/-- What a read returns ends the source. -/
inductive Stops : Except String Report → Prop
  | broken (reason : String) : Stops (.error reason)
  | controlC {r : Report} (h : r.IsControlC) : Stops (.ok r)

/-- The character that a report stands for. Keys that are held down or released stand for none, and
neither does anything but a key; shift, control and alt do not matter. -/
def Report.image? : Report → Option Word
  | .key ⟨.char c, _, _, _, .press⟩ =>
    if c.toNat < 128 then some (BitVec.ofNat 16 c.toNat) else none
  | .key ⟨.enter, _, _, _, .press⟩ => some 10
  | .key ⟨.backspace, _, _, _, .press⟩ => some 8
  | .key ⟨.tab, _, _, _, .press⟩ => some 9
  | .key ⟨.escape, _, _, _, .press⟩ => some 27
  | _ => none

theorem Report.response_of_isControlC {r : Report} (h : r.IsControlC) :
    r.response = .interrupt := by
  obtain ⟨shift, alt, rfl⟩ := h
  rfl

/-- A source sends the image of a report that does not end it. -/
theorem Report.response_eq {r : Report} (h : ¬ r.IsControlC) :
    r.response = match r.image? with
      | some c => .send c
      | none => .ignore := by
  cases r with
  | resize | focusGained | focusLost | paste text | other description => rfl
  | key e =>
    obtain ⟨key, shift, control, alt, stroke⟩ := e
    cases stroke with
    | hold | release => cases key <;> rfl
    | press =>
      have hnot : KeyEvent.isControlC ⟨key, shift, control, alt, .press⟩ = false := by
        by_contra hc
        unfold KeyEvent.isControlC at hc
        rw [Bool.not_eq_false, Bool.and_eq_true, decide_eq_true_iff] at hc
        obtain ⟨rfl : key = .char 'c', rfl : control = true⟩ := hc
        exact h ⟨shift, alt, rfl⟩
      have hresponse : response (.key ⟨key, shift, control, alt, .press⟩) =
          if KeyEvent.isControlC ⟨key, shift, control, alt, .press⟩ then .interrupt
          else match key.character? with
            | some c => .send c
            | none => .ignore := rfl
      rw [hresponse, hnot, if_neg Bool.false_ne_true]
      cases key <;> rfl

/-! ### Scripts -/

/-- **The first end** of a script that has one. -/
theorem exists_first_stop {script : List (Except String Report)}
    (h : ∃ read ∈ script, Stops read) :
    ∃ (before : List Report) (stop : Except String Report) (after : List (Except String Report)),
      script = before.map .ok ++ stop :: after ∧ (∀ r ∈ before, ¬ r.IsControlC) ∧
        Stops stop := by
  induction script with
  | nil =>
    obtain ⟨read, hmem, -⟩ := h
    cases hmem
  | cons read script ih =>
    by_cases hstop : Stops read
    · exact ⟨[], read, script, rfl, fun r hr => absurd hr List.not_mem_nil, hstop⟩
    · -- so the read returned a report, and the end is among the others
      cases read with
      | error reason => exact absurd (.broken reason) hstop
      | ok r =>
        obtain ⟨other, hmem, hother⟩ := h
        have hlater : other ∈ script := by
          refine (List.mem_cons.1 hmem).resolve_left ?_
          rintro rfl
          exact hstop hother
        obtain ⟨before, stop, after, rfl, hbefore, hfirst⟩ := ih ⟨other, hlater, hother⟩
        refine ⟨r :: before, stop, after, rfl, ?_, hfirst⟩
        exact List.forall_mem_cons.2 ⟨fun hc => hstop (.controlC hc), hbefore⟩

/-- A report that does not end the source is sent, and then the source goes on. -/
theorem listen_report {r : Report} (h : ¬ r.IsControlC) (script : List (Except String Report)) :
    listen true (.ok r :: script) = (listen true script).after (r.image?.toList.map .send) := by
  have hresponse := Report.response_eq h
  cases himage : r.image? with
  | some c =>
    rw [himage] at hresponse
    simp only [listen, hresponse, if_true]
    rfl
  | none =>
    rw [himage] at hresponse
    simp only [listen, hresponse]
    rfl

theorem listen_before {before : List Report} (h : ∀ r ∈ before, ¬ r.IsControlC)
    (script : List (Except String Report)) :
    listen true (before.map .ok ++ script) =
      ⟨(before.filterMap Report.image?).map .send ++ (listen true script).actions,
        before.length + (listen true script).reads, (listen true script).warning⟩ := by
  induction before with
  | nil =>
    rw [List.length_nil, Nat.zero_add]
    rfl
  | cons r before ih =>
    obtain ⟨hr, hbefore⟩ := List.forall_mem_cons.1 h
    have hsends : ((r :: before).filterMap Report.image?).map SourceAction.send =
        r.image?.toList.map .send ++ (before.filterMap Report.image?).map .send := by
      rw [List.filterMap_cons, ← List.map_append]
      cases r.image? <;> rfl
    have hcount : (r :: before).length + (listen true script).reads =
        before.length + (listen true script).reads + 1 := Nat.succ_add _ _
    rw [List.map_cons, List.cons_append, listen_report hr, ih hbefore, hsends, hcount,
      List.append_assoc]
    rfl

/-- What a source does for its end, before it closes the queue. -/
def signalOf : Except String Report → List SourceAction
  | .ok _ => [.interrupt]
  | .error _ => []

/-- What it has to warn about. -/
def warningOf : Except String Report → Option Event
  | .ok _ => none
  | .error reason => some (.terminalStopped reason)

/-- **A source on a script that is cut at its end.** What stands behind the end is never read. -/
theorem listen_stop {before : List Report} {stop : Except String Report}
    (hbefore : ∀ r ∈ before, ¬ r.IsControlC) (hstop : Stops stop)
    (after : List (Except String Report)) :
    listen true (before.map .ok ++ stop :: after) =
      ⟨(before.filterMap Report.image?).map .send ++ signalOf stop ++ [.close],
        before.length + 1, warningOf stop⟩ := by
  rw [listen_before hbefore, List.append_assoc]
  cases hstop with
  | broken reason => rfl
  | controlC hc =>
    unfold listen
    rw [Report.response_of_isControlC hc]
    rfl

/-! ### The keyboard -/

/-- What a terminal has come to whose first end is `stop`, after the reports `before`. -/
structure Meaning (script : List (Except String Report)) (before : List Report)
    (stop : Except String Report) : Prop where
  /-- The images of the reports are there to be read. -/
  available : (listen true script).keyboard.available = before.filterMap Report.image?
  /-- They are read in order, and the next attempt fails. -/
  reads : (listen true script).keyboard.reads ((before.filterMap Report.image?).length + 1) =
    (before.filterMap Report.image?).map .character ++
      [.failed (if (listen true script).keyboard.interrupted then .interrupted else .inputClosed)]
  closed : (listen true script).keyboard.isOpen = false
  /-- The flag tells CTRL-C from a failure. -/
  flag : (listen true script).keyboard.interrupted = true ↔ ∃ r, stop = .ok r ∧ r.IsControlC
  /-- So does the log, which has the reason of a failure and nothing else. -/
  warning : ∀ level text,
    (listen true script).warning.map (fun e => (e.level, e.text)) = some (level, text) ↔
      ∃ reason, stop = .error reason ∧ level = .warn ∧
        text = "Stopped reading keyboard events: " ++ reason
  /-- The terminal is not read any further. -/
  used : (listen true script).reads = before.length + 1
  /-- Beside a program that uses the keyboard meanwhile, each character has been handed out by the
  time the queue is closed, or is still there, and the flag is the same. -/
  history : ∀ {σ : Type} [ByteSink σ] (start : Cycle σ) (moves : List Move),
    start.machine.memory.keyboard = .channel [] true → History script moves →
    (Move.performAll moves start).machine.memory.keyboard.isOpen = false →
      Move.deliveredAll moves start ++
          (Move.performAll moves start).machine.memory.keyboard.available =
        before.filterMap Report.image? ∧
      ((Move.performAll moves start).machine.memory.keyboard.interrupted = true ↔
        ∃ r, stop = .ok r ∧ r.IsControlC)

section Actions

variable (typed : List Word) (stop : Except String Report)

theorem accepted_signalOf :
    SourceAction.accepted (typed.map .send ++ signalOf stop ++ [.close]) = typed := by
  rw [List.append_assoc, SourceAction.accepted_sends]
  cases stop with
  | ok r => exact List.append_nil _
  | error reason => exact List.append_nil _

theorem close_notMem_signalOf : .close ∉ typed.map .send ++ signalOf stop := by
  cases stop with
  | ok r => simp [signalOf]
  | error reason => simp [signalOf]

variable {stop}

theorem interrupt_mem_signalOf (hstop : Stops stop) :
    .interrupt ∈ typed.map .send ++ signalOf stop ++ [.close] ↔
      ∃ r, stop = .ok r ∧ r.IsControlC := by
  cases hstop with
  | broken reason => simp [signalOf]
  | controlC hr => simp [signalOf, hr]

end Actions

/-- **What a terminal comes to**, by the reports before its end. -/
theorem meaning_stop {before : List Report} {stop : Except String Report}
    (hbefore : ∀ r ∈ before, ¬ r.IsControlC) (hstop : Stops stop)
    (after : List (Except String Report)) :
    Meaning (before.map .ok ++ stop :: after) before stop := by
  have hlisten := listen_stop hbefore hstop after
  -- the script is of no more interest than by what the source does on it
  generalize before.map .ok ++ stop :: after = script at hlisten ⊢
  generalize htyped : before.filterMap Report.image? = typed at hlisten
  have hactions : (listen true script).actions = typed.map .send ++ signalOf stop ++ [.close] :=
    congrArg Feed.actions hlisten
  have havailable : (listen true script).keyboard.available = typed := by
    rw [Feed.available_keyboard, hactions, accepted_signalOf]
  have hclosed : (listen true script).keyboard.isOpen = false := by
    rw [Feed.isOpen_keyboard, hactions]
    exact List.mem_append_right _ (List.mem_singleton_self _)
  constructor
  case available => exact havailable.trans htyped.symm
  case reads =>
    have hreads := (listen true script).keyboard.reads_available
    rw [havailable, hclosed] at hreads
    rw [htyped]
    exact hreads
  case closed => exact hclosed
  case flag =>
    rw [Feed.interrupted_keyboard, hactions]
    exact interrupt_mem_signalOf typed hstop
  case warning =>
    intro level text
    rw [hlisten]
    constructor
    · intro h
      cases stop with
      | ok r => cases h
      | error reason =>
        cases h
        exact ⟨reason, rfl, rfl, rfl⟩
    · rintro ⟨reason, rfl, rfl, rfl⟩
      rfl
  case used => rw [hlisten]
  case history =>
    intro σ _ start moves hfresh hmoves hnow
    unfold History at hmoves
    rw [hactions] at hmoves
    have hfinished := hmoves.finished (close_notMem_signalOf typed stop) hfresh hnow
    rw [accepted_signalOf, interrupt_mem_signalOf typed hstop] at hfinished
    rw [htyped]
    exact hfinished

/-- **The meaning of what is typed.** Whatever the reads of a terminal return, if one of them fails
or CTRL-C is pressed: the reports before the first such end are what matters. -/
theorem terminal_meaning (script : List (Except String Report))
    (hend : ∃ read ∈ script, Stops read) :
    ∃ (before : List Report) (stop : Except String Report) (after : List (Except String Report)),
      script = before.map .ok ++ stop :: after ∧ (∀ r ∈ before, ¬ r.IsControlC) ∧ Stops stop ∧
        Meaning script before stop := by
  obtain ⟨before, stop, after, rfl, hbefore, hstop⟩ := exists_first_stop hend
  exact ⟨before, stop, after, rfl, hbefore, hstop, meaning_stop hbefore hstop after⟩

/-- Keys of every kind, up to a CTRL-C that is pressed; before it one is released, and there is a
capital letter with the control key. -/
def mixedKeys : List (Except String Report) :=
  [.ok (.key ⟨.char 'h', false, false, true, .press⟩),
    .ok (.key ⟨.char 'h', false, false, true, .release⟩),
    .ok (.key ⟨.char 'c', false, true, false, .release⟩),
    .ok (.key ⟨.char (Char.ofNat 0xE9), false, false, false, .press⟩),
    .ok (.key ⟨.enter, false, false, false, .hold⟩),
    .ok .resize,
    .ok (.key ⟨.tab, true, false, false, .press⟩),
    .ok (.key ⟨.char 'C', true, true, false, .press⟩),
    .ok (.key ⟨.char 'c', false, true, false, .press⟩),
    .error "gone"]

theorem terminal_meaning_mixedKeys :
    (∃ read ∈ mixedKeys, Stops read) ∧
      ∃ (before : List Report) (stop : Except String Report)
        (after : List (Except String Report)),
        mixedKeys = before.map .ok ++ stop :: after ∧ Meaning mixedKeys before stop ∧
          before.filterMap Report.image? = [0x68, 9, 0x43] ∧ ∃ r, stop = .ok r := by
  have hend : ∃ read ∈ mixedKeys, Stops read :=
    ⟨.error "gone", by simp [mixedKeys], .broken "gone"⟩
  obtain ⟨before, stop, after, hscript, -, -, hmeaning⟩ := terminal_meaning mixedKeys hend
  have htyped : (listen true mixedKeys).keyboard.available = [0x68, 9, 0x43] := by decide +kernel
  have hflag : (listen true mixedKeys).keyboard.interrupted = true := by decide +kernel
  obtain ⟨r, hstop, -⟩ := hmeaning.flag.1 hflag
  exact ⟨hend, before, stop, after, hscript, hmeaning, hmeaning.available.symm.trans htyped,
    r, hstop⟩

end Terminal

end LC3
