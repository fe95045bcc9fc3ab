import LC3.Proofs.Console.Passing
import LC3.Proofs.Ending
import LC3.Proofs.Overlay
import LC3.Proofs.StopRequest
import Mathlib.Data.List.Infix

/-!
# The program with redirected input

With redirected input the program loads its images, puts a keyboard over standard input into the
machine, and executes until the machine halts or fails. Bytes arrive while it executes, so how the
program ends is a relation (`Exits`): standard input is what its reads return, and what they have
returned by the time at which a part of a cycle begins is a matter of chance.

The statement about it (`redirected_outcome`) is assembled from these parts.

* Either the first file that is refused ends the loading, or all images are placed on top of each
  other (`loadFiles_of_refused`, `loadFiles_of_loadable`).
* Standard output passes everything on, so the run is one on a console that keeps what it is given
  (`exits_iff_of_loaded`).
* The exit is made of the ending of this run, which can be read off the log as well
  (`ofEnding?_eq_some_iff`). Nobody asks to stop, because standard input is not a terminal.

It speaks of arguments that ask for some images to be run. Which images these can be is settled by
`Request.exists_ofArguments_eq_run_iff`.

The program proper reads all of standard input before it executes anything. This is one of the
ways in which bytes can arrive (`exits_of_execute?`), and if it is the one, the program comes to the
end that the machine comes to, given enough cycles (`exists_execute?_iff`).
-/

namespace LC3

/-! ### Input that has arrived before a run -/

theorem Changes.Idle.eq_replicate {fs : Changes} (h : fs.Idle) :
    fs = List.replicate fs.length id :=
  List.eq_replicate_of_mem h

namespace SourceAction

/-- A source may do everything before the first part of a cycle. -/
theorem Spread.of_idle (actions : List SourceAction) {fs : Changes} (h : fs.Idle) :
    Spread actions (performAll actions :: fs) := by
  have hnil : performAll [] = id := funext performAll_nil
  refine ⟨actions :: List.replicate fs.length [], ?_, ?_⟩
  · rw [List.map_cons, List.map_replicate, hnil, ← h.eq_replicate]
  · rw [List.flatten_cons, List.flatten_replicate_nil, List.append_nil]

end SourceAction

namespace Machine

variable {σ : Type} [ByteSink σ] {m : Machine} {s : σ} {f g : Keyboard → Keyboard} {fs : Changes}

theorem Executes.exists_cons {r : Run σ} (h : m.Executes s fs r) (hs : m.status = .running) :
    ∃ f rest, fs = f :: rest := by
  cases h with
  | halted hs' => exact absurd (hs.symm.trans hs') Status.noConfusion
  | failed _ hc _ =>
    obtain ⟨f, rest, rfl, -⟩ := hc.of_running hs
    exact ⟨f, rest, rfl⟩
  | goesOn _ hc _ _ =>
    obtain ⟨f, rest, rfl, -⟩ := hc.of_running hs
    exact ⟨f, rest ++ _, rfl⟩

/-- What has happened to the keyboard before a call may as well happen at the beginning of it. -/
theorem steps_onKeyboard_iff (hs : m.status = .running) {c : Cycle σ} :
    (m.onKeyboard g).Steps s (f :: fs) c ↔ m.Steps s ((f ∘ g) :: fs) c := by
  have hs' : (m.onKeyboard g).status = .running := hs
  have htwice : (m.onKeyboard g).onKeyboard f = m.onKeyboard (f ∘ g) := rfl
  rw [steps_cons_iff hs', steps_cons_iff hs, htwice]

/-- Runs are the same if their first steps are, whatever changes these begin with. -/
theorem Executes.of_steps {m' : Machine} (hs : m.status = .running) (hs' : m'.status = .running)
    (hsteps : ∀ fs c, m.Steps s (f :: fs) c → m'.Steps s (g :: fs) c) {r : Run σ}
    (h : m.Executes s (f :: fs) r) : m'.Executes s (g :: fs) r := by
  generalize hall : f :: fs = all at h
  cases h with
  | halted hs₀ => exact absurd (hs.symm.trans hs₀) Status.noConfusion
  | failed _ hc hf =>
    subst hall
    exact .failed hs' (hsteps _ _ hc) hf
  | goesOn _ hc hf hr =>
    -- the first change belongs to the first step, and the rest of the run is the same
    obtain ⟨_, rest, rfl, -⟩ := hc.of_running hs
    obtain ⟨rfl, rfl⟩ := List.cons.inj hall
    exact .goesOn hs' (hsteps rest _ hc) hf hr

theorem executes_onKeyboard_iff (hs : m.status = .running) {r : Run σ} :
    (m.onKeyboard g).Executes s (f :: fs) r ↔ m.Executes s ((f ∘ g) :: fs) r := by
  have hs' : (m.onKeyboard g).status = .running := hs
  exact ⟨.of_steps hs' hs fun _ _ => (steps_onKeyboard_iff hs).1,
    .of_steps hs hs' fun _ _ => (steps_onKeyboard_iff hs).2⟩

/-- **A keyboard that is left alone from the beginning**, and one that is left alone after its first
change. -/
theorem executes_idle_onKeyboard_iff (hs : m.status = .running) {r : Run σ} :
    (∃ fs : Changes, fs.Idle ∧ (m.onKeyboard g).Executes s fs r) ↔
      ∃ fs : Changes, fs.Idle ∧ m.Executes s (g :: fs) r := by
  constructor
  · rintro ⟨fs, hidle, h⟩
    obtain ⟨f, rest, rfl⟩ := h.exists_cons hs
    obtain ⟨rfl, hrest⟩ := List.forall_mem_cons.1 hidle
    have hlate := (executes_onKeyboard_iff hs).1 h
    rw [Function.id_comp] at hlate
    exact ⟨rest, hrest, hlate⟩
  · rintro ⟨fs, hidle, h⟩
    rw [← Function.id_comp g, ← executes_onKeyboard_iff hs] at h
    exact ⟨id :: fs, List.forall_mem_cons.2 ⟨rfl, hidle⟩, h⟩

end Machine

namespace CommandLine

/-! ### Arguments -/

namespace Request

theorem ofImages_eq_run_iff {images images' : List String} :
    ofImages images = .run images' ↔ images ≠ [] ∧ images' = images := by
  unfold ofImages
  cases images with
  | nil => simp
  | cons image images => simp [eq_comm]

theorem ofOption_ne_run (option : String) (images : List String) :
    ofOption option ≠ .run images := by
  unfold ofOption
  split
  · exact Request.noConfusion
  · split
    · exact Request.noConfusion
    · split <;> exact Request.noConfusion

theorem of_ofRest_eq_run {before arguments images : List String}
    (h : ofRest before arguments = .run images) (hbefore : "" ∉ before) :
    images ≠ [] ∧ "" ∉ images := by
  induction arguments generalizing before with
  | nil =>
    obtain ⟨hne, rfl⟩ := ofImages_eq_run_iff.1 h
    exact ⟨hne, hbefore⟩
  | cons argument rest ih =>
    unfold ofRest at h
    split at h
    · split at h
      · cases h
      · next hrest =>
        obtain ⟨hne, rfl⟩ := ofImages_eq_run_iff.1 h
        -- behind the separator everything is a path
        refine ⟨hne, ?_⟩
        rw [List.mem_append, not_or]
        exact ⟨hbefore, by simpa using hrest⟩
    · split at h
      · cases h
      · next hempty =>
        split at h
        · exact absurd h (ofOption_ne_run argument images)
        · refine ih h ?_
          rw [List.mem_append, not_or, List.mem_singleton]
          exact ⟨hbefore, Ne.symm hempty⟩

theorem ofRest_of_paths {images : List String}
    (h : ∀ path ∈ images, path ≠ "" ∧ isOption path = false) (before : List String) :
    ofRest before images = ofImages (before ++ images) := by
  induction images generalizing before with
  | nil =>
    rw [List.append_nil]
    rfl
  | cons path images ih =>
    obtain ⟨⟨hempty, hoption⟩, hrest⟩ := List.forall_mem_cons.1 h
    have hend : path ≠ "--" := by
      rintro rfl
      cases hoption
    unfold ofRest
    rw [if_neg hend, if_neg hempty, hoption, if_neg Bool.false_ne_true, ih hrest, List.append_assoc]
    rfl

/-- Arguments that are paths, and none of which looks like an option, name images in their order. -/
theorem ofArguments_of_paths {images : List String} (hne : images ≠ [])
    (h : ∀ path ∈ images, path ≠ "" ∧ isOption path = false) :
    ofArguments images = .run images := by
  unfold ofArguments
  rw [ofRest_of_paths h, List.nil_append]
  exact ofImages_eq_run_iff.2 ⟨hne, rfl⟩

/-- **The arguments may name any images**, as long as there is one and no path is empty. -/
theorem exists_ofArguments_eq_run_iff {images : List String} :
    (∃ arguments, ofArguments arguments = .run images) ↔ images ≠ [] ∧ "" ∉ images := by
  constructor
  · rintro ⟨arguments, h⟩
    exact of_ofRest_eq_run h List.not_mem_nil
  · rintro ⟨hne, hempty⟩
    refine ⟨"--" :: images, ?_⟩
    unfold ofArguments ofRest
    rw [if_pos rfl, if_neg (by simpa using hempty)]
    exact ofImages_eq_run_iff.2 ⟨hne, rfl⟩

end Request

/-! ### How the program ends -/

variable (read : String → Except ReadFailure (List Byte)) (input : List Stream.Chunk)
  (images : List String)

/-- The program ends, given what the reads of standard input return. -/
inductive Exits : Exit → Prop
  | refused {e : LoadError} (h : loadImages read images = .error e) : Exits (.ofLoadError e)
  | ran {memory : Memory} {fs : Changes} {r : Run Output} {exit : Exit}
      (h : loadImages read images = .ok memory)
      (hfs : SourceAction.Spread (Source.stream input).actions fs)
      (hr : (machine memory (Source.stream input).keyboard).Executes freshOutput fs r)
      (hexit : Exit.ofEnding? r.sink.inner.output r.ending = some exit) : Exits exit

/-- What an exit has to do with the run of the machine. -/
structure Verdict {σ : Type} (r : Run (Recorded σ)) (exit : Exit) : Prop where
  /-- Standard output is what the machine has written. -/
  stdout : exit.stdout = r.sink.output
  /-- The status is zero if and only if the run was ended by the call of the routine for that. -/
  regular : exit.status = 0 ↔
    ∃ before address i, i.IsHalt ∧ r.log = before ++ [.fetched address i, .halted address]
  /-- It is one if and only if the run has failed, for another reason than the wish of the user. -/
  aborted : exit.status = 1 ↔ ∃ fault, r.ending = .failed fault ∧ fault ≠ .interrupted
  /-- There is no third status. -/
  status : exit.status = 0 ∨ exit.status = 1
  /-- Standard error has the reason of a failure. -/
  stderr : exit.stderr = (r.ending.fault?.map fun fault => s!"Aborted: {fault.message}\n").getD ""

variable {read input images}

section Verdict

variable {σ : Type} [ByteSink σ] {m : Machine} {s : Recorded σ} {fs : Changes}
  {r : Run (Recorded σ)} {exit : Exit}

theorem verdict_iff_of_halted (hr : m.Executes s fs r) (hs : m.status = .running)
    (he : r.ending = .halted) : Verdict r exit ↔ exit = ⟨0, r.sink.output, ""⟩ := by
  have hcall := (hr.halted_iff hs).1 he
  constructor
  · intro h
    obtain ⟨status, stdout, stderr⟩ := exit
    have hstderr := h.stderr
    rw [he] at hstderr
    obtain rfl : status = 0 := h.regular.2 hcall
    obtain rfl : stdout = r.sink.output := h.stdout
    obtain rfl : stderr = "" := hstderr
    rfl
  · rintro rfl
    refine ⟨rfl, iff_of_true rfl hcall, iff_of_false Nat.zero_ne_one ?_, .inl rfl, ?_⟩
    · rintro ⟨fault, hfault, -⟩
      rw [he] at hfault
      cases hfault
    · rw [he]
      rfl

theorem verdict_iff_of_failed (hr : m.Executes s fs r) (hs : m.status = .running) {fault : Fault}
    (he : r.ending = .failed fault) (hne : fault ≠ .interrupted) :
    Verdict r exit ↔ exit = ⟨1, r.sink.output, s!"Aborted: {fault.message}\n"⟩ := by
  have hcall : ¬ ∃ before address i, Instruction.IsHalt i ∧
      r.log = before ++ [.fetched address i, .halted address] := by
    rw [← hr.halted_iff hs, he]
    exact Ending.noConfusion
  constructor
  · intro h
    obtain ⟨status, stdout, stderr⟩ := exit
    have hstderr := h.stderr
    rw [he] at hstderr
    obtain rfl : status = 1 := h.aborted.2 ⟨fault, he, hne⟩
    obtain rfl : stdout = r.sink.output := h.stdout
    obtain rfl : stderr = s!"Aborted: {fault.message}\n" := hstderr
    rfl
  · rintro rfl
    refine ⟨rfl, iff_of_false Nat.one_ne_zero hcall, iff_of_true rfl ⟨fault, he, hne⟩, .inr rfl, ?_⟩
    rw [he]
    rfl

/-- The exit that is made of the ending of a run is the one with that verdict. -/
theorem ofEnding?_eq_some_iff (hr : m.Executes s fs r) (hs : m.status = .running)
    (hne : r.ending.fault? ≠ some .interrupted) :
    Exit.ofEnding? r.sink.output r.ending = some exit ↔ Verdict r exit := by
  obtain he | ⟨fault, he⟩ := hr.ended.2
  · rw [verdict_iff_of_halted hr hs he, he]
    exact Option.some_inj.trans eq_comm
  · rw [he] at hne
    have hfault : fault ≠ .interrupted := fun heq => hne (congrArg some heq)
    have hexit : Exit.ofEnding? r.sink.output (.failed fault) =
        some ⟨1, r.sink.output, s!"Aborted: {fault.message}\n"⟩ := by
      cases fault with
      | interrupted => exact absurd rfl hfault
      | invalidOpcode opcode address | invalidTrap vector address | inputClosed | output e => rfl
    rw [verdict_iff_of_failed hr hs he hfault, he, hexit]
    exact Option.some_inj.trans eq_comm

end Verdict

/-! ### The run -/

/-- On the console of the program nothing is translated, so the exit is the verdict on the run on a
console without translation. -/
theorem exists_executes_freshOutput_iff {m : Machine} (hs : m.status = .running)
    (hclear : m.memory.keyboard.interrupted = false) {fs : Changes} (hfs : fs.Calm) {exit : Exit} :
    (∃ r, m.Executes freshOutput fs r ∧
        Exit.ofEnding? r.sink.inner.output r.ending = some exit) ↔
      ∃ r, m.Executes (Recorded.start OpenSink.mk) fs r ∧ Verdict r exit := by
  have hpass := Translating.passes (σ := Recorded OpenSink)
  constructor
  · rintro ⟨_, hr, hexit⟩
    -- a console that translates nothing may be left out
    obtain ⟨r, hplain, rfl⟩ := (Machine.executes_mapSink_iff hpass).1 hr
    have hne := hplain.fault_ne hfs hclear
    exact ⟨r, hplain, (ofEnding?_eq_some_iff hplain hs hne).1 hexit⟩
  · rintro ⟨r, hr, hverdict⟩
    have hne := hr.fault_ne hfs hclear
    exact ⟨_, (Machine.executes_mapSink_iff hpass).2 ⟨r, hr, rfl⟩,
      (ofEnding?_eq_some_iff hr hs hne).2 hverdict⟩

/-- Nobody asks to stop by way of standard input. -/
theorem calm_of_spread {fs : Changes}
    (h : SourceAction.Spread (Source.stream input).actions fs) : fs.Calm :=
  h.calm (Source.interrupt_notMem fun _ => Source.noConfusion)

/-- A program whose images were loaded ends as its machine does on a console of its own. -/
theorem exits_iff_of_loaded {memory : Memory} (h : loadImages read images = .ok memory)
    {exit : Exit} :
    Exits read input images exit ↔
      ∃ fs r, SourceAction.Spread (Source.stream input).actions fs ∧
        (machine memory (Source.stream input).keyboard).Executes (Recorded.start OpenSink.mk) fs r ∧
        Verdict r exit := by
  constructor
  · intro hexit
    cases hexit with
    | refused h' =>
      rw [h] at h'
      cases h'
    | @ran memory' fs r' _ h' hfs hr hexit =>
      rw [h] at h'
      cases h'
      obtain ⟨r, hplain, hverdict⟩ :=
        (exists_executes_freshOutput_iff rfl rfl (calm_of_spread hfs)).1 ⟨r', hr, hexit⟩
      exact ⟨fs, r, hfs, hplain, hverdict⟩
  · rintro ⟨fs, r, hfs, hr, hverdict⟩
    obtain ⟨r', hr', hexit⟩ :=
      (exists_executes_freshOutput_iff rfl rfl (calm_of_spread hfs)).2 ⟨r, hr, hverdict⟩
    exact .ran h hfs hr' hexit

theorem exits_iff_of_refused {e : LoadError} (h : loadImages read images = .error e)
    {exit : Exit} : Exits read input images exit ↔ exit = .ofLoadError e := by
  constructor
  · intro hexit
    cases hexit with
    | refused h' =>
      rw [h] at h'
      cases h'
      rfl
    | ran h' _ _ _ =>
      rw [h] at h'
      cases h'
  · rintro rfl
    exact .refused h

/-! ### The program proper -/

/-- An exit takes a machine that is done. -/
theorem ended_of_ofEnding? {stdout : List Byte} {ending : Ending} {exit : Exit}
    (h : Exit.ofEnding? stdout ending = some exit) :
    ending = .halted ∨ ∃ fault, ending = .failed fault := by
  cases ending with
  | halted => exact .inl rfl
  | failed fault => exact .inr ⟨fault, rfl⟩
  | waiting address echo | unfinished => cases h

/-- What becomes of the keyboard by all of standard input. -/
def arrival (input : List Stream.Chunk) : Keyboard → Keyboard :=
  SourceAction.performAll (Source.stream (input ++ [.ok []])).actions

theorem execute?_of_loaded {arguments : List String}
    (hrun : Request.ofArguments arguments = .run images) {memory : Memory}
    (hload : loadImages read images = .ok memory) (cycles : ℕ) :
    execute? cycles arguments read input =
      let m := (machine memory (Source.stream input).keyboard).onKeyboard (arrival input)
      let r := m.runFor cycles freshOutput
      Exit.ofEnding? r.sink.inner.output r.ending := by
  unfold execute?
  rw [hrun]
  simp only [hload]
  rfl

/-- **The program proper gets to the end of a run** on standard input that has arrived before the
first cycle, and to no other. -/
theorem exists_execute?_iff {arguments : List String}
    (hrun : Request.ofArguments arguments = .run images) {memory : Memory}
    (hload : loadImages read images = .ok memory) {exit : Exit} :
    (∃ cycles, execute? cycles arguments read input = some exit) ↔
      ∃ (fs : Changes) (r : Run (Recorded OpenSink)), fs.Idle ∧
        (machine memory (Source.stream input).keyboard).Executes (Recorded.start OpenSink.mk)
          (arrival input :: fs) r ∧
        Verdict r exit := by
  have hcalm {fs : Changes} (hidle : fs.Idle) : Changes.Calm (arrival input :: fs) :=
    calm_of_spread (.of_idle _ hidle)
  constructor
  · rintro ⟨cycles, h⟩
    rw [execute?_of_loaded hrun hload] at h
    have hearly := Machine.executes_iff_runFor.2 ⟨⟨cycles, rfl⟩, ended_of_ofEnding? h⟩
    obtain ⟨fs, hidle, hr⟩ := (Machine.executes_idle_onKeyboard_iff rfl).1 hearly
    obtain ⟨r, hplain, hverdict⟩ :=
      (exists_executes_freshOutput_iff rfl rfl (hcalm hidle)).1 ⟨_, hr, h⟩
    exact ⟨fs, r, hidle, hplain, hverdict⟩
  · rintro ⟨fs, r, hidle, hr, hverdict⟩
    obtain ⟨r', hr', hexit⟩ :=
      (exists_executes_freshOutput_iff rfl rfl (hcalm hidle)).2 ⟨r, hr, hverdict⟩
    -- with the input in its keyboard the machine is left alone, and so many cycles are enough
    have hearly := (Machine.executes_idle_onKeyboard_iff rfl).2 ⟨fs, hidle, hr'⟩
    obtain ⟨⟨cycles, rfl⟩, -⟩ := Machine.executes_iff_runFor.1 hearly
    exact ⟨cycles, (execute?_of_loaded hrun hload cycles).trans hexit⟩

/-- **What the program proper comes to** is one of the ways in which it may end. -/
theorem exits_of_execute? {cycles : ℕ} {arguments : List String} {exit : Exit}
    (hrun : Request.ofArguments arguments = .run images)
    (h : execute? cycles arguments read input = some exit) :
    Exits read (input ++ [.ok []]) images exit := by
  cases hload : loadImages read images with
  | error e =>
    unfold execute? at h
    rw [hrun] at h
    simp only [hload] at h
    cases h
    exact .refused hload
  | ok memory =>
    obtain ⟨fs, r, hidle, hr, hverdict⟩ := (exists_execute?_iff hrun hload).1 ⟨cycles, h⟩
    exact (exits_iff_of_loaded hload).2 ⟨_, r, .of_idle _ hidle, hr, hverdict⟩

/-- What the program does with redirected input, when it is asked to run some images. -/
structure Redirected (read : String → Except ReadFailure (List Byte)) (input : List Stream.Chunk)
    (images : List String) : Prop where
  /-- If some file cannot be read or is too short, the first such file ends the program, whatever
  the others are. The status is one and nothing is written to standard output; this is settled
  before any cycle. -/
  refused : (∃ path ∈ images, ¬ Loadable (read path)) → ∃ before path after,
    images = before ++ path :: after ∧ (∀ p ∈ before, Loadable (read p)) ∧ ¬ Loadable (read path) ∧
      let exit : Exit := ⟨1, [], s!"Failed to load image: {(refusal path (read path)).message}\n"⟩
      (∀ other, Exits read input images other ↔ other = exit) ∧
        ∀ arguments, Request.ofArguments arguments = .run images →
          ∀ cycles, execute? cycles arguments read input = some exit
  /-- Otherwise the program ends as a machine does that starts with cleared registers, on memory in
  which a cell holds the word of the last image that covers it, or zero, with a keyboard over
  standard input and a console that takes everything. Standard output is what that machine has
  written, and the status tells whether it was ended by its program or by a fault. -/
  loaded : (∀ path ∈ images, Loadable (read path)) → ∃ m : Machine,
    (∀ a, m.memory.peek a = ((Image.wordsAt (imagesOf read images) a).getLast?).getD 0) ∧
      m.memory.keyboard = (Source.stream input).keyboard ∧ m.registers = .initial ∧
      m.registers.pc = 0x3000 ∧ m.status = .running ∧
      ∀ exit, Exits read input images exit ↔
        ∃ fs r, SourceAction.Spread (Source.stream input).actions fs ∧
          m.Executes (Recorded.start OpenSink.mk) fs r ∧ Verdict r exit
  /-- There is no end by the wish of the user. -/
  status : ∀ exit, Exits read input images exit →
    (exit.status = 0 ∨ exit.status = 1) ∧ exit.status ≠ interruptedStatus
  /-- What the program proper comes to, which waits for the end of standard input before it executes
  anything, is one of these ends. -/
  program : ∀ arguments, Request.ofArguments arguments = .run images → ∀ cycles exit,
    execute? cycles arguments read input = some exit →
      Exits read (input ++ [.ok []]) images exit
  /-- Of the machine's ends it comes to those for which all of standard input has arrived before the
  first cycle, and to each of them if it is given enough cycles. -/
  early : ∀ arguments, Request.ofArguments arguments = .run images → ∀ memory,
    loadImages read images = .ok memory → ∀ exit,
      (∃ cycles, execute? cycles arguments read input = some exit) ↔
        ∃ (fs : Changes) (r : Run (Recorded OpenSink)), fs.Idle ∧
          (machine memory (Source.stream input).keyboard).Executes (Recorded.start OpenSink.mk)
            (arrival input :: fs) r ∧
          Verdict r exit

/-- The memory that was loaded, cell by cell. -/
theorem peek_of_loadable (h : ∀ path ∈ images, Loadable (read path)) :
    ∃ memory, loadImages read images = .ok memory ∧
      ∀ a, memory.peek a = ((Image.wordsAt (imagesOf read images) a).getLast?).getD 0 := by
  refine ⟨_, (loadImages_eq_loadFiles images).trans (loadFiles_of_loadable h _), ?_⟩
  intro a
  rw [Memory.peek_foldl_place, Memory.peek_cleared]

/-- Whether the images were loaded or not, the status is zero or one. -/
theorem Exits.status {exit : Exit} (h : Exits read input images exit) :
    exit.status = 0 ∨ exit.status = 1 := by
  cases hload : loadImages read images with
  | error e =>
    rw [exits_iff_of_refused hload] at h
    exact .inr (congrArg Exit.status h)
  | ok memory =>
    obtain ⟨fs, r, -, -, hverdict⟩ := (exits_iff_of_loaded hload).1 h
    exact hverdict.status

/-- **How the program ends with redirected input**, for all images, files and standard inputs. -/
theorem redirected_outcome (read : String → Except ReadFailure (List Byte))
    (input : List Stream.Chunk) (images : List String) : Redirected read input images where
  refused h := by
    obtain ⟨before, path, after, himages, hbefore, hpath⟩ := exists_first_refused h
    have hload : loadImages read images = .error (refusal path (read path)) := by
      rw [himages]
      exact loadFiles_of_refused hbefore hpath _
    refine ⟨before, path, after, himages, hbefore, hpath,
      fun other => exits_iff_of_refused hload, ?_⟩
    intro arguments hrun cycles
    unfold execute?
    rw [hrun]
    simp only [hload]
    rfl
  loaded h := by
    obtain ⟨memory, hload, hpeek⟩ := peek_of_loadable h
    exact ⟨machine memory (Source.stream input).keyboard, hpeek, rfl, rfl, rfl, rfl,
      fun exit => exits_iff_of_loaded hload⟩
  status exit h := by
    refine ⟨h.status, ?_⟩
    obtain hstatus | hstatus := h.status
    · rw [hstatus]
      decide
    · rw [hstatus]
      decide
  program arguments hrun cycles exit h := exits_of_execute? hrun h
  early arguments hrun memory hload exit := exists_execute?_iff hrun hload

/-- Two files with images for the same addresses: a program that ends, and an endless loop. -/
def overlapping (path : String) : Except ReadFailure (List Byte) :=
  if path = "stop" then .ok [0x30, 0x00, 0xF0, 0x25]
  else if path = "loop" then .ok [0x30, 0x00, 0x0F, 0xFF]
  else .error .notFound

example : execute? 5 ["loop", "stop"] overlapping [] = some ⟨0, asciiBytes "\nHALT\n", ""⟩ := by
  decide +kernel

end CommandLine

end LC3
