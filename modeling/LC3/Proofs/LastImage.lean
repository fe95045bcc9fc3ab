import LC3.Proofs.Halting
import LC3.Proofs.Overlay

/-!
# The last image counts

A host program may load any number of images into one machine, from byte sequences and from files,
in any order, and some of them may be refused. What it finds afterwards can be said cell by cell: a
cell holds the word of the last image whose footprint covers it, and a cell that no footprint covers
holds what it held before. Everything but the cells is as before.

A footprint is what the report of a placement says: so many addresses from the origin on, none of
them beyond the top of memory. The words are those of the byte sequence (`LoadRequest.Has`). Both are
said here without reference to how an image is placed; `has_iff` is where the two meet.

* `Machine.answerAll` — a machine behind some requests, and `session_iff`, that calls which load
  images lead there and nowhere else.
* `peek_answerAll` — what each cell holds.
* `last_image_counts` — the statement as a whole, with what follows from it: to load an image twice
  is to load it once, two images may change places exactly if they agree where they overlap, and a
  request that is refused may as well not be made.
-/

namespace LC3

/-! ### Requests -/

/-- What a host program asks for when it wants an image to be loaded. -/
inductive LoadRequest
  /-- The image that a byte sequence holds. -/
  | bytes (bytes : List Byte)
  /-- The image that the file at a path holds, given what reading the file comes to. -/
  | file (path : String) (content : Except ReadFailure (List Byte))

namespace LoadRequest

/-- The call that makes the request. -/
def call : LoadRequest → Call
  | bytes b => .load b
  | file path content => .loadFile path content

/-- The bytes of the image, if they can be had at all. -/
def content : LoadRequest → Except ReadFailure (List Byte)
  | bytes b => .ok b
  | file _ content => content

/-- The answer to the request. -/
def load (x : LoadRequest) (m : Memory) : Except LoadError Loaded :=
  match x with
  | bytes b => m.load b
  | file path content => m.loadFile path content

def image? (x : LoadRequest) : Option Image := CommandLine.image? x.content

/-- Where the image ends up, if there is one. -/
def placement? (x : LoadRequest) : Option Placement := x.image?.map Image.placement

/-- The image has a place for its word at an address: one of so many from the origin on. -/
def Covers (x : LoadRequest) (a : Word) : Prop :=
  ∃ p, x.placement? = some p ∧ p.origin.toNat ≤ a.toNat ∧ a.toNat < p.origin.toNat + p.wordCount

/-- The image covers an address and has the word `w` for it, the big-endian one at the place in the
byte sequence that lies as far behind the origin. -/
def Has (x : LoadRequest) (a w : Word) : Prop :=
  ∃ bytes p high low, x.content = .ok bytes ∧ x.placement? = some p ∧
    p.origin.toNat ≤ a.toNat ∧ a.toNat < p.origin.toNat + p.wordCount ∧
    bytes[2 + 2 * (a.toNat - p.origin.toNat)]? = some high ∧
    bytes[3 + 2 * (a.toNat - p.origin.toNat)]? = some low ∧ w = .ofBytes high low

/-- The word that the image has for an address, in terms of the image alone. -/
def wordAt? (x : LoadRequest) (a : Word) : Option Word := x.image?.bind fun image => image.wordAt? a

end LoadRequest

/-! ### Footprints -/

namespace Image

/-- The report counts the words that have an address. -/
theorem lt_wordCount_iff (image : Image) {a : Word} (ha : image.origin.toNat ≤ a.toNat) :
    a.toNat < image.origin.toNat + image.placement.wordCount ↔
      a.toNat - image.origin.toNat < image.words.length := by
  have hcount : image.placement.wordCount =
      min image.words.length (65536 - image.origin.toNat) := rfl
  have htop : a.toNat < 65536 := a.isLt
  rw [hcount]
  omega

/-- An image has a word for the addresses of its footprint. -/
theorem wordAt?_ne_none_iff (image : Image) (a : Word) :
    image.wordAt? a ≠ none ↔ image.origin.toNat ≤ a.toNat ∧
      a.toNat < image.origin.toNat + image.placement.wordCount := by
  unfold wordAt?
  by_cases ha : image.origin.toNat ≤ a.toNat
  · rw [if_pos ha, Ne, List.getElem?_eq_none_iff, Nat.not_le, image.lt_wordCount_iff ha]
    exact (and_iff_right ha).symm
  · rw [if_neg ha]
    exact ⟨fun h => absurd rfl h, fun h => absurd h.1 ha⟩

/-- The word for an address, byte by byte. -/
theorem wordAt?_eq_some_iff {bytes : List Byte} {image : Image} (h : ofBytes? bytes = some image)
    {a : Word} (ha : image.origin.toNat ≤ a.toNat) (w : Word) :
    image.wordAt? a = some w ↔ ∃ high low,
      bytes[2 + 2 * (a.toNat - image.origin.toNat)]? = some high ∧
        bytes[3 + 2 * (a.toNat - image.origin.toNat)]? = some low ∧ w = .ofBytes high low := by
  match bytes, h with
  | high₀ :: low₀ :: payload, h =>
    obtain rfl : (⟨.ofBytes high₀ low₀, (pairs payload).1, (pairs payload).2⟩ : Image) = image :=
      Option.some.inj h
    unfold wordAt?
    rw [if_pos ha]
    generalize a.toNat - (Word.ofBytes high₀ low₀).toNat = i
    -- the origin stands before the words
    have hhigh : (high₀ :: low₀ :: payload)[2 + 2 * i]? = payload[2 * i]? := by
      rw [Nat.add_comm 2]
      rfl
    have hlow : (high₀ :: low₀ :: payload)[3 + 2 * i]? = payload[2 * i + 1]? := by
      rw [Nat.add_comm 3]
      rfl
    rw [hhigh, hlow, getElem?_pairs, Option.bind_eq_some_iff]
    constructor
    · rintro ⟨high, hpayload, hw⟩
      obtain ⟨low, hnext, rfl⟩ := Option.map_eq_some_iff.1 hw
      exact ⟨high, low, hpayload, hnext, rfl⟩
    · rintro ⟨high, low, hpayload, hnext, rfl⟩
      exact ⟨high, hpayload, Option.map_eq_some_iff.2 ⟨low, hnext, rfl⟩⟩

end Image

namespace LoadRequest

variable {x : LoadRequest}

theorem image?_eq_none_iff (x : LoadRequest) :
    x.image? = none ↔ ∀ bytes, x.content = .ok bytes → bytes.length < 2 := by
  unfold image?
  cases x.content with
  | error reason =>
    refine ⟨fun _ bytes h => ?_, fun _ => rfl⟩
    cases h
  | ok bytes =>
    refine (Image.ofBytes?_eq_none_iff bytes).trans ⟨fun hshort bytes' h => ?_, fun h => h bytes rfl⟩
    cases h
    exact hshort

theorem exists_content {image : Image} (h : x.image? = some image) :
    ∃ bytes, x.content = .ok bytes ∧ Image.ofBytes? bytes = some image := by
  unfold image? at h
  cases hc : x.content with
  | error reason =>
    rw [hc] at h
    cases h
  | ok bytes =>
    rw [hc] at h
    exact ⟨bytes, rfl, h⟩

theorem wordAt?_of_image? {image : Image} (h : x.image? = some image) (a : Word) :
    x.wordAt? a = image.wordAt? a := by
  unfold wordAt?
  rw [h]
  rfl

theorem wordAt?_of_none (h : x.image? = none) (a : Word) : x.wordAt? a = none := by
  unfold wordAt?
  rw [h]
  rfl

theorem covers_iff (x : LoadRequest) (a : Word) : x.Covers a ↔ x.wordAt? a ≠ none := by
  unfold Covers placement? wordAt?
  cases x.image? with
  | none =>
    refine ⟨?_, fun h => absurd rfl h⟩
    rintro ⟨p, hp, -⟩
    cases hp
  | some image =>
    refine Iff.trans ?_ (image.wordAt?_ne_none_iff a).symm
    constructor
    · rintro ⟨p, hp, hfootprint⟩
      cases hp
      exact hfootprint
    · intro hfootprint
      exact ⟨image.placement, rfl, hfootprint⟩

/-- Requests that do not cover an address have no words for it. -/
theorem wordsAt_eq_nil {xs : List LoadRequest} {a : Word} (h : ∀ x ∈ xs, ¬ x.Covers a) :
    (xs.filterMap fun x => x.wordAt? a) = [] := by
  refine List.filterMap_eq_nil_iff.2 ?_
  intro x hx
  exact Classical.not_not.1 (mt (x.covers_iff a).2 (h x hx))

/-- **The word that is placed is the one in the byte sequence.** -/
theorem has_iff (x : LoadRequest) (a w : Word) : x.Has a w ↔ x.wordAt? a = some w := by
  cases hi : x.image? with
  | none =>
    rw [wordAt?_of_none hi]
    constructor
    · rintro ⟨bytes, p, high, low, -, hp, -⟩
      unfold placement? at hp
      rw [hi] at hp
      cases hp
    · intro h
      cases h
  | some image =>
    obtain ⟨bytes, hbytes, hof⟩ := exists_content hi
    have hplacement : x.placement? = some image.placement := by
      unfold placement?
      rw [hi]
      rfl
    rw [wordAt?_of_image? hi]
    constructor
    · rintro ⟨bytes', p, high, low, hcontent, hp, ha, -, hhigh, hlow, hw⟩
      -- there is one byte sequence and one placement
      obtain rfl : bytes = bytes' := Except.ok.inj (hbytes.symm.trans hcontent)
      obtain rfl : image.placement = p := Option.some.inj (hplacement.symm.trans hp)
      exact (Image.wordAt?_eq_some_iff hof ha w).2 ⟨high, low, hhigh, hlow, hw⟩
    · intro hw
      have hcovered : image.wordAt? a ≠ none := by
        rw [hw]
        exact Option.some_ne_none w
      obtain ⟨ha, hend⟩ := (image.wordAt?_ne_none_iff a).1 hcovered
      obtain ⟨high, low, hhigh, hlow, hword⟩ := (Image.wordAt?_eq_some_iff hof ha w).1 hw
      exact ⟨bytes, image.placement, high, low, hbytes, hplacement, ha, hend, hhigh, hlow, hword⟩

/-! ### Answers -/

theorem load_of_image? {image : Image} (h : x.image? = some image) (m : Memory) :
    x.load m = .ok ⟨image.placement, m.place image, image.placingLog⟩ := by
  obtain ⟨bytes, hbytes, hof⟩ := exists_content h
  have hload : m.load bytes = .ok ⟨image.placement, m.place image, image.placingLog⟩ := by
    unfold Memory.load
    rw [hof]
  cases x with
  | bytes b =>
    cases hbytes
    exact hload
  | file path content =>
    cases hbytes
    exact hload

theorem load_of_none (h : x.image? = none) (m : Memory) : ∃ e, x.load m = .error e := by
  have hshort := x.image?_eq_none_iff.1 h
  cases x with
  | bytes b => exact ⟨_, (m.load_of_length_lt (hshort b rfl)).1⟩
  | file path content =>
    cases content with
    | error reason => exact ⟨_, rfl⟩
    | ok b => exact ⟨_, (m.load_of_length_lt (hshort b rfl)).1⟩

/-- The report is the same whatever memory the image is placed in. -/
theorem placement?_eq_some_iff (x : LoadRequest) (m : Memory) (p : Placement) :
    x.placement? = some p ↔ ∃ loaded, x.load m = .ok loaded ∧ loaded.placement = p := by
  unfold placement?
  cases hi : x.image? with
  | none =>
    obtain ⟨e, he⟩ := load_of_none hi m
    rw [he]
    constructor
    · intro h
      cases h
    · rintro ⟨loaded, hloaded, -⟩
      cases hloaded
  | some image =>
    rw [load_of_image? hi m]
    constructor
    · intro hp
      exact ⟨_, rfl, Option.some.inj hp⟩
    · rintro ⟨loaded, hloaded, rfl⟩
      cases hloaded
      rfl

end LoadRequest

/-! ### Machines -/

namespace Machine

/-- The machine behind a request; one that is refused changes nothing. -/
def answer (m : Machine) (x : LoadRequest) : Machine :=
  match x.load m.memory with
  | .ok loaded => m.withMemory loaded.memory
  | .error _ => m

/-- The machine behind several requests. -/
def answerAll (m : Machine) (xs : List LoadRequest) : Machine := xs.foldl answer m

variable (m : Machine)

theorem answer_of_image? {x : LoadRequest} {image : Image} (h : x.image? = some image) :
    m.answer x = m.withMemory (m.memory.place image) := by
  unfold answer
  rw [LoadRequest.load_of_image? h]

theorem answer_of_none {x : LoadRequest} (h : x.image? = none) : m.answer x = m := by
  obtain ⟨e, he⟩ := LoadRequest.load_of_none h m.memory
  unfold answer
  rw [he]

/-- What a request leaves in each cell: its own word for it, or what was there. -/
theorem peek_answer (x : LoadRequest) (a : Word) :
    (m.answer x).memory.peek a = (x.wordAt? a).getD (m.memory.peek a) := by
  cases hi : x.image? with
  | none => rw [m.answer_of_none hi, LoadRequest.wordAt?_of_none hi, Option.getD_none]
  | some image =>
    rw [m.answer_of_image? hi, LoadRequest.wordAt?_of_image? hi]
    exact m.memory.peek_place image a

/-- Behind some requests the images of those that were not refused lie on top of each other. -/
theorem answerAll_eq (xs : List LoadRequest) :
    m.answerAll xs =
      m.withMemory ((xs.filterMap LoadRequest.image?).foldl Memory.place m.memory) := by
  induction xs generalizing m with
  | nil => rfl
  | cons x xs ih =>
    change (m.answer x).answerAll xs = _
    rw [ih]
    cases hi : x.image? with
    | none => rw [m.answer_of_none hi, List.filterMap_cons_none hi]
    | some image =>
      rw [m.answer_of_image? hi, List.filterMap_cons_some hi]
      rfl

/-- **What each cell holds**: the last word that there is for it. -/
theorem peek_answerAll (xs : List LoadRequest) (a : Word) :
    (m.answerAll xs).memory.peek a =
      ((xs.filterMap fun x => x.wordAt? a).getLast?).getD (m.memory.peek a) := by
  have hwords : Image.wordsAt (xs.filterMap LoadRequest.image?) a =
      xs.filterMap fun x => x.wordAt? a :=
    List.filterMap_filterMap
  rw [answerAll_eq]
  change ((xs.filterMap LoadRequest.image?).foldl Memory.place m.memory).peek a = _
  rw [Memory.peek_foldl_place, hwords]

theorem keyboard_answerAll (xs : List LoadRequest) :
    (m.answerAll xs).memory.keyboard = m.memory.keyboard := by
  rw [answerAll_eq]
  change ((xs.filterMap LoadRequest.image?).foldl Memory.place m.memory).keyboard = _
  generalize xs.filterMap LoadRequest.image? = images
  induction images generalizing m with
  | nil => rfl
  | cons image images ih =>
    calc ((image :: images).foldl Memory.place m.memory).keyboard
        = (m.memory.place image).keyboard := ih (m.withMemory (m.memory.place image))
      _ = m.memory.keyboard := Memory.keyboard_fill m.memory image.origin image.words

variable {m} in
/-- Machines behind requests differ in their cells at most. -/
theorem answerAll_eq_of_peek {xs ys : List LoadRequest}
    (h : ∀ a, (m.answerAll xs).memory.peek a = (m.answerAll ys).memory.peek a) :
    m.answerAll xs = m.answerAll ys := by
  have hmemory : (m.answerAll xs).memory = (m.answerAll ys).memory :=
    Memory.ext_peek h ((m.keyboard_answerAll xs).trans (m.keyboard_answerAll ys).symm)
  calc m.answerAll xs = m.withMemory (m.answerAll xs).memory := by rw [answerAll_eq]; rfl
    _ = m.withMemory (m.answerAll ys).memory := by rw [hmemory]
    _ = m.answerAll ys := by rw [answerAll_eq]; rfl

end Machine

/-! ### Calls -/

section Calls

variable {σ : Type} [ByteSink σ]

theorem LoadRequest.returns_call_iff (x : LoadRequest) (m : Machine) (s : σ) (r : Return σ) :
    x.call.Returns m s r ↔ r = .ofLoad m s (x.load m.memory) := by
  constructor
  · intro h
    cases x with
    | bytes b =>
      cases h with
      | load _ => rfl
    | file path content =>
      cases h with
      | loadFile _ _ => rfl
  · rintro rfl
    cases x with
    | bytes b => exact .load b
    | file path content => exact .loadFile path content

omit [ByteSink σ] in
theorem Return.ofLoad_answer (m : Machine) (s : σ) (x : LoadRequest) :
    (Return.ofLoad m s (x.load m.memory)).machine = m.answer x ∧
      (Return.ofLoad m s (x.load m.memory)).sink = s := by
  unfold Machine.answer
  cases x.load m.memory with
  | ok loaded => exact ⟨rfl, rfl⟩
  | error e => exact ⟨rfl, rfl⟩

/-- Calls that load images return, and there is one machine that they lead to. -/
theorem Machine.session_iff {m m' : Machine} {s s' : σ} (xs : List LoadRequest) :
    (∃ rs, Session m s (xs.map LoadRequest.call) rs m' s') ↔ m' = m.answerAll xs ∧ s' = s := by
  induction xs generalizing m with
  | nil =>
    constructor
    · rintro ⟨rs, h⟩
      cases h with
      | nil => exact ⟨rfl, rfl⟩
    · rintro ⟨rfl, rfl⟩
      exact ⟨[], .nil⟩
  | cons x xs ih =>
    obtain ⟨hmachine, hsink⟩ := Return.ofLoad_answer m s x
    constructor
    · rintro ⟨rs, h⟩
      cases h with
      | cons hcall hrs =>
        -- the first call leads to the machine that the others start from
        obtain rfl := (x.returns_call_iff m s _).1 hcall
        rw [hmachine, hsink] at hrs
        exact ih.1 ⟨_, hrs⟩
    · rintro ⟨rfl, rfl⟩
      obtain ⟨rs, hrs⟩ := (ih (m := m.answer x)).2 ⟨rfl, rfl⟩
      refine ⟨_ :: rs, .cons ((x.returns_call_iff m s' _).2 rfl) ?_⟩
      rw [hmachine, hsink]
      exact hrs

end Calls

/-! ### The last one -/

/-- What loading images comes to, for a host program with a machine and a console. -/
structure LastImageCounts {σ : Type} [ByteSink σ] (m : Machine) (s : σ) : Prop where
  /-- Calls that load images return, with this machine, and the console is left alone. -/
  session : ∀ xs m' s', (∃ rs, Session m s (xs.map LoadRequest.call) rs m' s') ↔
    m' = m.answerAll xs ∧ s' = s
  /-- A file that can be read, or a byte sequence, is loaded if it has two bytes; and wherever it is
  loaded, the report is that of its footprint. -/
  loaded : ∀ (x : LoadRequest) bytes, x.content = .ok bytes → 2 ≤ bytes.length →
    ∃ p, x.placement? = some p ∧
      ∀ memory, ∃ loaded, x.load memory = .ok loaded ∧ loaded.placement = p
  /-- Only cells change. -/
  only_cells : ∀ xs, (m.answerAll xs).registers = m.registers ∧
    (m.answerAll xs).status = m.status ∧ (m.answerAll xs).memory.keyboard = m.memory.keyboard
  /-- A cell holds the word of the last image that covers it. -/
  covered : ∀ before (x : LoadRequest) (after : List LoadRequest) a,
    x.Covers a → (∀ y ∈ after, ¬ y.Covers a) →
      x.Has a ((m.answerAll (before ++ x :: after)).memory.peek a)
  /-- A cell that no image covers keeps its word. -/
  uncovered : ∀ (xs : List LoadRequest) a, (∀ x ∈ xs, ¬ x.Covers a) →
    (m.answerAll xs).memory.peek a = m.memory.peek a
  /-- An image has one word for every address that it covers, and none for any other. -/
  word : ∀ (x : LoadRequest) a, (x.Covers a ↔ ∃ w, x.Has a w) ∧
    ∀ v w, x.Has a v → x.Has a w → v = w
  /-- To load an image twice is to load it once. -/
  twice : ∀ x, m.answerAll [x, x] = m.answerAll [x]
  /-- Two images may change places if and only if they agree where both have a word. -/
  swap : ∀ x y : LoadRequest, (m.answerAll [x, y]).memory = (m.answerAll [y, x]).memory ↔
    ∀ a v w, x.Has a v → y.Has a w → v = w
  /-- A file that cannot be read and a sequence too short for an origin are refused, and then
  nothing changes. -/
  refused : ∀ before (x : LoadRequest) after,
    (∀ bytes, x.content = .ok bytes → bytes.length < 2) →
      (∀ memory, ∃ e, x.load memory = .error e) ∧
        m.answerAll (before ++ x :: after) = m.answerAll (before ++ after)

/-- **The last image counts**, for every machine and all images. -/
theorem last_image_counts {σ : Type} [ByteSink σ] (m : Machine) (s : σ) : LastImageCounts m s where
  session xs _ _ := Machine.session_iff xs
  loaded x bytes hbytes hlong := by
    have himage : x.image? ≠ none := by
      intro hnone
      exact absurd (x.image?_eq_none_iff.1 hnone bytes hbytes) (Nat.not_lt.2 hlong)
    obtain ⟨image, hi⟩ := Option.ne_none_iff_exists'.1 himage
    have hp : x.placement? = some image.placement := congrArg (Option.map _) hi
    exact ⟨image.placement, hp, fun memory => (x.placement?_eq_some_iff memory _).1 hp⟩
  only_cells xs := by
    refine ⟨?_, ?_, m.keyboard_answerAll xs⟩
    · rw [Machine.answerAll_eq]
      rfl
    · rw [Machine.answerAll_eq]
      rfl
  covered before x after a hx hafter := by
    obtain ⟨w, hw⟩ := Option.ne_none_iff_exists'.1 ((x.covers_iff a).1 hx)
    -- nothing comes behind its word
    have hwords : ((before ++ x :: after).filterMap fun y => y.wordAt? a) =
        (before.filterMap fun y => y.wordAt? a) ++ [w] := by
      rw [List.filterMap_append, List.filterMap_cons, hw, LoadRequest.wordsAt_eq_nil hafter]
    rw [LoadRequest.has_iff, hw, m.peek_answerAll, hwords, List.getLast?_concat]
    rfl
  uncovered xs a h := by
    rw [m.peek_answerAll, LoadRequest.wordsAt_eq_nil h]
    rfl
  word x a := by
    refine ⟨?_, ?_⟩
    · rw [x.covers_iff, Option.ne_none_iff_exists']
      exact exists_congr fun w => (x.has_iff a w).symm
    · intro v w hv hw
      exact Option.some.inj (((x.has_iff a v).1 hv).symm.trans ((x.has_iff a w).1 hw))
  twice x := by
    refine Machine.answerAll_eq_of_peek ?_
    intro a
    change ((m.answer x).answer x).memory.peek a = (m.answer x).memory.peek a
    rw [Machine.peek_answer, m.peek_answer]
    -- the second time there is the same word, or none again
    cases x.wordAt? a with
    | none => rfl
    | some w => rfl
  swap x y := by
    have hpair (x y : LoadRequest) (a : Word) : (m.answerAll [x, y]).memory.peek a =
        (y.wordAt? a).getD ((x.wordAt? a).getD (m.memory.peek a)) := by
      calc (m.answerAll [x, y]).memory.peek a
          = (y.wordAt? a).getD ((m.answer x).memory.peek a) := (m.answer x).peek_answer y a
        _ = (y.wordAt? a).getD ((x.wordAt? a).getD (m.memory.peek a)) := by rw [m.peek_answer]
    constructor
    · intro h a v w hv hw
      have hcell : (m.answerAll [x, y]).memory.peek a = (m.answerAll [y, x]).memory.peek a := by
        rw [h]
      rw [hpair, hpair, (x.has_iff a v).1 hv, (y.has_iff a w).1 hw] at hcell
      exact hcell.symm
    · intro h
      refine congrArg (fun m : Machine => m.memory) (Machine.answerAll_eq_of_peek ?_)
      intro a
      rw [hpair, hpair]
      -- the two orders differ at most where both have a word
      cases hx : x.wordAt? a with
      | none => rfl
      | some v =>
        cases hy : y.wordAt? a with
        | none => rfl
        | some w => exact (h a v w ((x.has_iff a v).2 hx) ((y.has_iff a w).2 hy)).symm
  refused before x after hx := by
    have hnone := x.image?_eq_none_iff.2 hx
    refine ⟨LoadRequest.load_of_none hnone, ?_⟩
    rw [m.answerAll_eq, m.answerAll_eq, List.filterMap_append, List.filterMap_cons_none hnone,
      List.filterMap_append]

end LC3
