import LC3.CommandLine
import LC3.Proofs.Placement

/-!
# Images on top of each other

Loading several images is placing one after the other, so a cell holds the word of the last image
that covers it (`Memory.peek_foldl_place`). Images come from files, and a file that cannot be read
or is too short for an origin is refused; the first such file ends the loading of all of them.

* `Image.wordAt?` — the word that an image has for an address.
* `imagesOf` — the images that files hold, without those that are refused.
* `loadFiles_of_loadable`, `loadFiles_of_refused` — what loading files in order comes to.
-/

namespace LC3

/-! ### Words of images -/

/-- The word that an image has for an address, if it covers it. -/
def Image.wordAt? (image : Image) (a : Word) : Option Word :=
  if image.origin.toNat ≤ a.toNat then image.words[a.toNat - image.origin.toNat]? else none

/-- The words that images have for an address, in the order of the images. -/
def Image.wordsAt (images : List Image) (a : Word) : List Word :=
  images.filterMap fun image => image.wordAt? a

namespace Memory

theorem peek_place (m : Memory) (image : Image) (a : Word) :
    (m.place image).peek a = (image.wordAt? a).getD (m.peek a) := by
  unfold place Image.wordAt?
  rw [peek_fill]
  split <;> rfl

/-- **The last image counts.** A cell holds the word of the last image that covers it, and a cell
that none covers keeps its word. -/
theorem peek_foldl_place (m : Memory) (images : List Image) (a : Word) :
    (images.foldl place m).peek a =
      ((Image.wordsAt images a).getLast?).getD (m.peek a) := by
  induction images generalizing m with
  | nil => rfl
  | cons image images ih =>
    rw [List.foldl_cons, ih, peek_place]
    cases hw : image.wordAt? a with
    | none =>
      have hwords : Image.wordsAt (image :: images) a = Image.wordsAt images a :=
        List.filterMap_cons_none hw
      rw [hwords]
      rfl
    | some w =>
      -- it counts if none of the others covers the cell
      have hwords : Image.wordsAt (image :: images) a = w :: Image.wordsAt images a :=
        List.filterMap_cons_some hw
      rw [hwords, List.getLast?_cons]
      rfl

end Memory

namespace CommandLine

/-! ### Files -/

/-- A file can be read and is long enough for an image. -/
def Loadable (content : Except ReadFailure (List Byte)) : Prop :=
  ∃ bytes, content = .ok bytes ∧ 2 ≤ bytes.length

/-- The image that a file holds, if it holds one. -/
def image? : Except ReadFailure (List Byte) → Option Image
  | .ok bytes => Image.ofBytes? bytes
  | .error _ => none

/-- The images that the files at some paths hold. -/
def imagesOf (read : String → Except ReadFailure (List Byte)) (paths : List String) : List Image :=
  paths.filterMap fun path => image? (read path)

/-- Why a file is refused. -/
def refusal (path : String) : Except ReadFailure (List Byte) → LoadError
  | .ok _ => .missingOrigin
  | .error reason => .unreadable path reason

variable {content : Except ReadFailure (List Byte)} {read : String → Except ReadFailure (List Byte)}

theorem loadable_iff : Loadable content ↔ ∃ image, image? content = some image := by
  cases content with
  | error reason =>
    constructor
    · rintro ⟨bytes, hbytes, -⟩
      cases hbytes
    · rintro ⟨image, himage⟩
      cases himage
  | ok bytes =>
    have hlength : Loadable (.ok bytes) ↔ ¬ bytes.length < 2 := by
      rw [Nat.not_lt]
      constructor
      · rintro ⟨bytes', hbytes, hlong⟩
        cases hbytes
        exact hlong
      · intro hlong
        exact ⟨bytes, rfl, hlong⟩
    rw [hlength, ← Image.ofBytes?_eq_none_iff, ← Ne, Option.ne_none_iff_exists']
    rfl

theorem loadFile_of_image? {image : Image} (m : Memory) (path : String)
    (h : image? content = some image) :
    (m.loadFile path content).map (·.memory) = .ok (m.place image) := by
  cases content with
  | error reason => cases h
  | ok bytes =>
    have hload : m.load bytes = .ok ⟨image.placement, m.place image, image.placingLog⟩ := by
      unfold Memory.load
      rw [show Image.ofBytes? bytes = some image from h]
    exact congrArg (Except.map Loaded.memory) hload

theorem loadFile_of_not_loadable (m : Memory) (path : String) (h : ¬ Loadable content) :
    (m.loadFile path content).map (·.memory) = .error (refusal path content) := by
  cases content with
  | error reason => rfl
  | ok bytes =>
    have hshort : bytes.length < 2 :=
      Nat.lt_of_not_le fun hlong => h ⟨bytes, rfl, hlong⟩
    exact congrArg (Except.map Loaded.memory) (m.load_of_length_lt hshort).1

/-- Loads the files at some paths, one after the other, into memory that need not be cleared. -/
def loadFiles (read : String → Except ReadFailure (List Byte)) (m : Memory)
    (paths : List String) : Except LoadError Memory :=
  paths.foldlM (fun memory path => (memory.loadFile path (read path)).map (·.memory)) m

theorem loadImages_eq_loadFiles (paths : List String) :
    loadImages read paths = loadFiles read (.cleared .disconnected) paths :=
  rfl

theorem loadFiles_cons_of_image? {image : Image} {path : String}
    (h : image? (read path) = some image) (m : Memory) (paths : List String) :
    loadFiles read m (path :: paths) = loadFiles read (m.place image) paths := by
  unfold loadFiles
  rw [List.foldlM_cons, loadFile_of_image? m path h]
  rfl

/-- Files that hold images are placed on top of each other. -/
theorem loadFiles_of_loadable {paths : List String} (h : ∀ path ∈ paths, Loadable (read path))
    (m : Memory) : loadFiles read m paths = .ok ((imagesOf read paths).foldl Memory.place m) := by
  induction paths generalizing m with
  | nil => rfl
  | cons path paths ih =>
    obtain ⟨hfirst, hrest⟩ := List.forall_mem_cons.1 h
    obtain ⟨image, himage⟩ := loadable_iff.1 hfirst
    have himages : imagesOf read (path :: paths) = image :: imagesOf read paths :=
      List.filterMap_cons_some himage
    rw [loadFiles_cons_of_image? himage, ih hrest, himages, List.foldl_cons]

/-- The first file that is refused ends the loading, whatever the others are. -/
theorem loadFiles_of_refused {before after : List String} {path : String}
    (hbefore : ∀ p ∈ before, Loadable (read p)) (hpath : ¬ Loadable (read path)) (m : Memory) :
    loadFiles read m (before ++ path :: after) = .error (refusal path (read path)) := by
  induction before generalizing m with
  | nil =>
    unfold loadFiles
    rw [List.nil_append, List.foldlM_cons, loadFile_of_not_loadable m path hpath]
    rfl
  | cons p before ih =>
    obtain ⟨hfirst, hrest⟩ := List.forall_mem_cons.1 hbefore
    obtain ⟨image, himage⟩ := loadable_iff.1 hfirst
    rw [List.cons_append, loadFiles_cons_of_image? himage, ih hrest]

/-- If there is a file that is refused, there is a first one. -/
theorem exists_first_refused {paths : List String}
    (h : ∃ path ∈ paths, ¬ Loadable (read path)) :
    ∃ before path after, paths = before ++ path :: after ∧
      (∀ p ∈ before, Loadable (read p)) ∧ ¬ Loadable (read path) := by
  induction paths with
  | nil =>
    obtain ⟨path, hmem, -⟩ := h
    cases hmem
  | cons p paths ih =>
    by_cases hp : Loadable (read p)
    · -- it is among the others
      obtain ⟨path, hmem, hpath⟩ := h
      obtain rfl | hmem := List.mem_cons.1 hmem
      · exact absurd hp hpath
      · obtain ⟨before, path, after, rfl, hbefore, hpath⟩ := ih ⟨path, hmem, hpath⟩
        exact ⟨p :: before, path, after, rfl, List.forall_mem_cons.2 ⟨hp, hbefore⟩, hpath⟩
    · exact ⟨[], p, paths, rfl, List.forall_mem_nil _, hp⟩

end CommandLine

end LC3
