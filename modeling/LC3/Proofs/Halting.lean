import LC3.Loading
import LC3.Proofs.Calls

/-!
# Halting is final

A machine halts because its program ends itself, or because of a fault. Either way it stays halted
until it is reset: whatever else a host program does with it, nothing is executed, nothing is
written, and no further fault is reported. This is a statement about sequences of calls, so the
calls are listed first (`Call`), with what each of them returns (`Call.Returns`), and a **session**
is a sequence of calls each of which returns.

The status is changed in three places: by the end of a program, by a fault, and by a reset. That the
first two agree with what a call answers is coherence (`Steps.status`), which has been shown of
every part of a cycle; that no call but a reset is the third is `Call.Returns.quiet`, and that a
reset is it, `Call.Returns.running_iff`. What a session does is then a matter of induction:

* `Session.quiet` — behind a halt every call is quiet.
* `halting_final` — the statement as a whole.
-/

namespace LC3

/-- What a host program can do with a machine. Calls that execute instructions come with what
happens to the keyboard meanwhile. -/
inductive Call
  /-- Executes one instruction. -/
  | step (changes : Changes)
  /-- Executes instructions as long as the machine runs. -/
  | execute (changes : Changes)
  /-- Loads an image. -/
  | load (bytes : List Byte)
  /-- Loads the image that a file holds, given what reading the file comes to. -/
  | loadFile (path : String) (content : Except ReadFailure (List Byte))
  /-- Uses memory or the near end of the keyboard. -/
  | access (x : Access)
  /-- Changes the keyboard in some other way. -/
  | keyboard (change : Keyboard → Keyboard)
  /-- Gets the machine ready to start over. -/
  | reset

/-- What is there when a call has returned. -/
structure Return (σ : Type) where
  /-- The fault that the call reports. -/
  fault? : Option Fault
  machine : Machine
  sink : σ
  /-- What was logged during the call. -/
  log : List Event

variable {σ : Type}

/-- The return of a call that loads an image, given what loading comes to. -/
def Return.ofLoad (m : Machine) (s : σ) : Except LoadError Loaded → Return σ
  | .ok loaded => ⟨none, m.withMemory loaded.memory, s, loaded.log⟩
  | .error _ => ⟨none, m, s, []⟩

variable [ByteSink σ]

/-- A call returns. -/
inductive Call.Returns (m : Machine) (s : σ) : Call → Return σ → Prop
  | step {fs : Changes} {c : Cycle σ} (h : m.Steps s fs c) :
      Returns m s (.step fs) ⟨c.phase.fault?, c.machine, c.sink, c.log⟩
  | execute {fs : Changes} {r : Run σ} (h : m.Executes s fs r) :
      Returns m s (.execute fs) ⟨r.ending.fault?, r.machine, r.sink, r.log⟩
  | load (bytes : List Byte) : Returns m s (.load bytes) (.ofLoad m s (m.memory.load bytes))
  | loadFile (path : String) (content : Except ReadFailure (List Byte)) :
      Returns m s (.loadFile path content) (.ofLoad m s (m.memory.loadFile path content))
  | access (x : Access) :
      Returns m s (.access x) ⟨none, m.withMemory (x.perform m.memory), s, []⟩
  | keyboard (f : Keyboard → Keyboard) :
      Returns m s (.keyboard f)
        ⟨none, m.withMemory (m.memory.connect (f m.memory.keyboard)), s, []⟩
  | reset : Returns m s .reset ⟨none, m.reset, s, []⟩

/-- Calls return one after the other. -/
inductive Session : Machine → σ → List Call → List (Return σ) → Machine → σ → Prop
  | nil {m : Machine} {s : σ} : Session m s [] [] m s
  | cons {m m' : Machine} {s s' : σ} {call : Call} {calls : List Call} {r : Return σ}
      {rs : List (Return σ)} (h : call.Returns m s r)
      (hrs : Session r.machine r.sink calls rs m' s') :
      Session m s (call :: calls) (r :: rs) m' s'

/-! ### Behind a halt -/

/-- A call that reports no fault, executes nothing and writes nothing, and leaves a halted machine.
-/
structure Return.Quiet (m : Machine) (s : σ) (r : Return σ) : Prop where
  fault : r.fault? = none
  status : r.machine.status = .halted
  registers : r.machine.registers = m.registers
  sink : r.sink = s
  fetched : ∀ address i, .fetched address i ∉ r.log

omit [ByteSink σ] in
theorem Return.Quiet.trans {m : Machine} {s : σ} {r r' : Return σ} (h : r.Quiet m s)
    (h' : r'.Quiet r.machine r.sink) : r'.Quiet m s where
  fault := h'.fault
  status := h'.status
  registers := h'.registers.trans h.registers
  sink := h'.sink.trans h.sink
  fetched := h'.fetched

omit [ByteSink σ] in
theorem Return.quiet_of_halted {m m' : Machine} (s : σ) (hs : m'.status = .halted)
    (hregisters : m'.registers = m.registers) : Quiet m s ⟨none, m', s, []⟩ where
  fault := rfl
  status := hs
  registers := hregisters
  sink := rfl
  fetched _ _ := List.not_mem_nil

/-- No instruction is fetched in order to load an image. -/
theorem Memory.fetched_notMem_load {m : Memory} {bytes : List Byte} {loaded : Loaded}
    (h : m.load bytes = .ok loaded) (address : Word) (i : Instruction) :
    .fetched address i ∉ loaded.log := by
  unfold load at h
  cases hi : Image.ofBytes? bytes with
  | none =>
    rw [hi] at h
    cases h
  | some image =>
    rw [hi] at h
    cases h
    intro hmem
    -- there are three things that can be said of an image
    obtain hmem | hmem := List.mem_append.1 hmem
    · obtain hmem | hmem := List.mem_append.1 hmem
      · split at hmem
        · exact absurd (List.mem_singleton.1 hmem) Event.noConfusion
        · exact List.not_mem_nil hmem
      · split at hmem
        · exact absurd (List.mem_singleton.1 hmem) Event.noConfusion
        · exact List.not_mem_nil hmem
    · exact absurd (List.mem_singleton.1 hmem) Event.noConfusion

theorem Memory.fetched_notMem_loadFile {m : Memory} {path : String}
    {content : Except ReadFailure (List Byte)} {loaded : Loaded}
    (h : m.loadFile path content = .ok loaded) (address : Word) (i : Instruction) :
    .fetched address i ∉ loaded.log := by
  cases content with
  | ok bytes => exact fetched_notMem_load h address i
  | error reason => cases h

omit [ByteSink σ] in
theorem Return.fault?_ofLoad (m : Machine) (s : σ) (loading : Except LoadError Loaded) :
    (ofLoad m s loading).fault? = none := by
  cases loading with
  | ok loaded => rfl
  | error e => rfl

omit [ByteSink σ] in
theorem Return.quiet_ofLoad {m : Machine} (s : σ) {loading : Except LoadError Loaded}
    (hs : m.status = .halted)
    (h : ∀ loaded, loading = .ok loaded → ∀ address i, .fetched address i ∉ loaded.log) :
    (ofLoad m s loading).Quiet m s := by
  cases loading with
  | ok loaded => exact ⟨rfl, hs, rfl, rfl, h loaded rfl⟩
  | error e => exact quiet_of_halted s hs rfl

/-- **On a halted machine every call is quiet**, unless it is a reset. -/
theorem Call.Returns.quiet {m : Machine} {s : σ} {call : Call} {r : Return σ}
    (h : call.Returns m s r) (hs : m.status = .halted) (hcall : call ≠ .reset) : r.Quiet m s := by
  cases h with
  | step h =>
    obtain ⟨-, rfl⟩ := (Machine.steps_iff_of_halted hs).1 h
    exact Return.quiet_of_halted s hs rfl
  | execute h =>
    obtain ⟨-, rfl⟩ := (Machine.executes_iff_of_halted hs).1 h
    exact Return.quiet_of_halted s hs rfl
  | load bytes => exact Return.quiet_ofLoad s hs fun _ => Memory.fetched_notMem_load
  | loadFile path content => exact Return.quiet_ofLoad s hs fun _ => Memory.fetched_notMem_loadFile
  | access x => exact Return.quiet_of_halted s hs rfl
  | keyboard f => exact Return.quiet_of_halted s hs rfl
  | reset => exact absurd rfl hcall

/-- A reset returns at once; it leaves the console as it is and logs nothing. -/
theorem Call.returns_reset_iff {m : Machine} {s : σ} {r : Return σ} :
    Call.Returns m s .reset r ↔ r = ⟨none, m.reset, s, []⟩ := by
  constructor
  · intro h
    cases h with
    | reset => rfl
  · rintro rfl
    exact .reset

/-- **A halted machine runs again behind a reset**, and behind no other call. -/
theorem Call.Returns.running_iff {m : Machine} {s : σ} {call : Call} {r : Return σ}
    (h : call.Returns m s r) (hs : m.status = .halted) :
    r.machine.status = .running ↔ call = .reset := by
  constructor
  · intro hrunning
    refine Classical.byContradiction fun hcall => ?_
    cases hrunning.symm.trans (h.quiet hs hcall).status
  · rintro rfl
    rw [Call.returns_reset_iff.1 h]
    rfl

/-- A call that reports a fault leaves a halted machine. -/
theorem Call.Returns.status_of_fault {m : Machine} {s : σ} {call : Call} {r : Return σ}
    (h : call.Returns m s r) (hf : r.fault? ≠ none) : r.machine.status = .halted := by
  cases h with
  | step h =>
    obtain ⟨o, ho, hstatus⟩ := h.status
    change Phase.fault? _ ≠ none at hf
    rw [ho] at hf
    cases o with
    | running => exact absurd rfl hf
    | halted => exact absurd rfl hf
    | failed fault => exact hstatus
  | execute h => exact h.ended.1
  | load bytes => exact absurd (Return.fault?_ofLoad m s _) hf
  | loadFile path content => exact absurd (Return.fault?_ofLoad m s _) hf
  | access x => exact absurd rfl hf
  | keyboard f => exact absurd rfl hf
  | reset => exact absurd rfl hf

/-! ### Sessions -/

namespace Session

variable {m m' : Machine} {s s' : σ} {calls : List Call} {rs : List (Return σ)}

/-- A session without a reset is quiet from a halt on, and ends with the machine still halted. -/
theorem quiet (h : Session m s calls rs m' s') (hreset : .reset ∉ calls)
    (hs : m.status = .halted) : (∀ r ∈ rs, r.Quiet m s) ∧ m'.status = .halted := by
  induction h with
  | nil => exact ⟨List.forall_mem_nil _, hs⟩
  | cons hcall hrs ih =>
    obtain ⟨hne, hreset⟩ := not_or.1 (mt List.mem_cons.2 hreset)
    have hfirst := hcall.quiet hs (Ne.symm hne)
    obtain ⟨hrest, hend⟩ := ih hreset hfirst.status
    refine ⟨List.forall_mem_cons.2 ⟨hfirst, ?_⟩, hend⟩
    -- quiet against what the first call has left, and that was quiet itself
    intro r hr
    exact hfirst.trans (hrest r hr)

/-- Behind a call that reports a fault, a session without a reset is quiet. -/
theorem pairwise_quiet (h : Session m s calls rs m' s') (hreset : .reset ∉ calls) :
    rs.Pairwise fun r r' => r.fault? ≠ none → r'.Quiet r.machine r.sink := by
  induction h with
  | nil => exact .nil
  | cons hcall hrs ih =>
    obtain ⟨-, hreset⟩ := not_or.1 (mt List.mem_cons.2 hreset)
    refine .cons ?_ (ih hreset)
    intro r' hr' hf
    exact (hrs.quiet hreset (hcall.status_of_fault hf)).1 r' hr'

/-- Steps that did not fail, and then a run: that is the run alone. -/
theorem executes_flatten_iff {fss : List Changes} (h : Session m s (fss.map .step) rs m' s')
    (hf : ∀ r ∈ rs, r.fault? = none) {gs : Changes} {r : Run σ} :
    m.Executes s (fss.flatten ++ gs) r ↔
      ∃ r', m'.Executes s' gs r' ∧ r = r'.behind (rs.flatMap Return.log) := by
  induction fss generalizing m s rs r with
  | nil =>
    cases h with
    | nil =>
      constructor
      · intro hr
        exact ⟨r, hr, rfl⟩
      · rintro ⟨r', hr, rfl⟩
        exact hr
  | cons fs fss ih =>
    cases h with
    | cons hcall hrs =>
      cases hcall with
      | @step _ c hc =>
        obtain ⟨hfirst, hrest⟩ := List.forall_mem_cons.1 hf
        -- the first step moves out of the run, and then the others do
        have happend (log : List Event) (r' : Run σ) :
            r'.behind (c.log ++ log) = (r'.behind log).behind c.log := by
          unfold Run.behind
          rw [List.append_assoc]
        rw [List.flatten_cons, List.append_assoc, Machine.executes_append_iff hc hfirst]
        constructor
        · rintro ⟨r₁, hr₁, rfl⟩
          obtain ⟨r', hr', rfl⟩ := (ih hrs hrest).1 hr₁
          exact ⟨r', hr', (happend _ r').symm⟩
        · rintro ⟨r', hr', rfl⟩
          exact ⟨_, (ih hrs hrest).2 ⟨r', hr', rfl⟩, happend _ r'⟩

end Session

omit [ByteSink σ] in
/-- If nothing is reported behind a fault, there is at most one. -/
theorem Return.length_faults_le_one {rs : List (Return σ)}
    (h : rs.Pairwise fun r r' => r.fault? ≠ none → r'.fault? = none) :
    (rs.filterMap Return.fault?).length ≤ 1 := by
  induction h with
  | nil => exact Nat.zero_le 1
  | @cons r rs hr h ih =>
    cases hf : r.fault? with
    | none => rwa [List.filterMap_cons_none hf]
    | some fault =>
      have hnone : rs.filterMap Return.fault? = [] := by
        refine List.filterMap_eq_nil_iff.2 ?_
        intro r' hr'
        exact hr r' hr' (by rw [hf]; exact Option.some_ne_none fault)
      rw [List.filterMap_cons_some hf, hnone]
      exact Nat.le_refl 1

/-- What halting means for a host program that has a machine and a console. -/
structure HaltingFinal (m : Machine) (s : σ) : Prop where
  /-- On a keyboard that is left alone, a step that returns is what `step` computes. -/
  step_alone : ∀ c, (∃ fs : Changes, fs.Idle ∧ m.Steps s fs c) ↔
    c = m.step s ∧ ∃ o, c.phase = .done o
  /-- Likewise a run that returns is what `runFor` computes for some number of cycles. -/
  execute_alone : ∀ r, (∃ fs : Changes, fs.Idle ∧ m.Executes s fs r) ↔
    (∃ n, m.runFor n s = r) ∧ (r.ending = .halted ∨ ∃ fault, r.ending = .failed fault)
  /-- A step that returns leaves the status that it answers; a step that fails leaves a halted
  machine. -/
  answered : ∀ fs c, m.Steps s fs c → ∃ o, c.phase = .done o ∧ c.machine.status = o.status
  /-- A step of a halted machine returns at once and is without any effect. -/
  step : m.status = .halted → ∀ fs c, m.Steps s fs c ↔ fs = [] ∧ c = ⟨.done .halted, m, s, []⟩
  /-- So does a run of a halted machine, and it has no effect either. -/
  execute : m.status = .halted →
    ∀ fs r, m.Executes s fs r ↔ fs = [] ∧ r = ⟨.halted, m, s, []⟩
  /-- A reset returns whatever the status is. -/
  reset : ∀ r, Call.Returns m s .reset r ↔ r = ⟨none, m.reset, s, []⟩
  /-- Of the calls on a halted machine it is the one that makes the machine run. -/
  restarts : m.status = .halted → ∀ call r, Call.Returns m s call r →
    (r.machine.status = .running ↔ call = .reset)
  /-- Only a reset makes a halted machine run, in any number of calls. -/
  stays : ∀ calls rs m' s', Session m s calls rs m' s' → .reset ∉ calls →
    m.status = .halted → m'.status = .halted
  /-- Between two resets at most one fault is reported, and nothing happens behind it. -/
  once : ∀ calls rs m' s', Session m s calls rs m' s' → .reset ∉ calls →
    (rs.filterMap Return.fault?).length ≤ 1 ∧
      rs.Pairwise fun r r' => r.fault? ≠ none → r'.Quiet r.machine r.sink
  /-- A run that returns leaves a halted machine. -/
  executed : ∀ fs r, m.Executes s fs r → r.machine.status = .halted
  /-- Any number of steps that do not fail may be made before a run. -/
  split : ∀ (fss : List Changes) rs m' s', Session m s (fss.map Call.step) rs m' s' →
    (∀ r ∈ rs, r.fault? = none) → ∀ gs r, m.Executes s (fss.flatten ++ gs) r ↔
      ∃ r', m'.Executes s' gs r' ∧ r = r'.behind (rs.flatMap Return.log)

/-- **Halting is final**, for every machine on every console. -/
theorem halting_final (m : Machine) (s : σ) : HaltingFinal m s where
  step_alone _ := Machine.steps_iff_step
  execute_alone _ := Machine.executes_iff_runFor
  answered _ _ h := h.status
  step hs _ _ := Machine.steps_iff_of_halted hs
  execute hs _ _ := Machine.executes_iff_of_halted hs
  reset _ := Call.returns_reset_iff
  restarts hs _ _ h := h.running_iff hs
  stays _ _ _ _ h hreset hs := (h.quiet hreset hs).2
  once calls rs m' s' h hreset := by
    have hquiet := h.pairwise_quiet hreset
    refine ⟨Return.length_faults_le_one (hquiet.imp ?_), hquiet⟩
    intro r r' himp hf
    exact (himp hf).fault
  executed _ _ h := h.ended.1
  split _ _ _ _ h hf _ _ := h.executes_flatten_iff hf

end LC3
