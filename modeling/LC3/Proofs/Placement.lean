import LC3.Loading
import Mathlib.Data.Nat.Notation

/-!
# Where the words of an image end up

Loading an image reads words off a byte sequence, two bytes each, and writes them to memory from the
origin on. The two halves meet in an index: word number `i` comes from the bytes `2 + 2 * i` and
`3 + 2 * i` and goes to the address that lies `i` behind the origin, as a number and not as a word,
so nothing wraps to the bottom of memory.

* `peek_fill` — what every cell holds behind a run of words, with the words that had no room.
* `Image.getElem?_pairs`, `Image.length_pairs` — which bytes make up a word, and how many words
  there are.
* `load_exact` — both together: the cells of the image, all the others, the keyboard, and what is
  reported; and that an image that was written is loaded as it was.

The report of a placement counts words by lengths alone, without looking at what was written. That
the two agree is `peek_fill` again: it bounds the run by the top of memory, and `capacityFrom` is
the same bound as a number of words.
-/

namespace LC3

/-! ### Words to cells -/

namespace Memory

/-- The memory behind an attempt to load an image; one that is refused changes nothing. -/
def afterLoading (m : Memory) (bytes : List Byte) : Memory :=
  match m.load bytes with
  | .ok loaded => loaded.memory
  | .error _ => m

/-- The keyboard is not looked at, even if the image covers its registers. -/
theorem keyboard_afterLoading (m : Memory) (bytes : List Byte) :
    (m.afterLoading bytes).keyboard = m.keyboard := by
  unfold afterLoading load
  cases Image.ofBytes? bytes with
  | some image => exact keyboard_fill m image.origin image.words
  | none => rfl

theorem toNat_succ_of_ne_top {a : Word} (ha : a ≠ 0xFFFF) : (a + 1).toNat = a.toNat + 1 := by
  have hlt : a.toNat < 65535 := by
    have hle := a.isLt
    have hne : a.toNat ≠ 65535 := fun h => ha (BitVec.eq_of_toNat_eq h)
    omega
  rw [BitVec.toNat_add]
  exact Nat.mod_eq_of_lt (Nat.succ_lt_succ hlt)

/-- **What every cell holds behind a run of words.** A cell at or above the start of the run holds
the word of its distance from there, if the run is that long; words beyond the top have no cell. -/
theorem peek_fill (m : Memory) (a b : Word) (values : List Word) :
    (m.fill a values).peek b =
      if a.toNat ≤ b.toNat then (values[b.toNat - a.toNat]?).getD (m.peek b) else m.peek b := by
  induction values generalizing m a with
  | nil => simp [fill]
  | cons value values ih =>
    by_cases hab : b = a
    · -- the first word of the run, which no later one overwrites
      subst hab
      rw [if_pos (Nat.le_refl _), Nat.sub_self]
      unfold fill
      split
      · exact peek_write_self m b value
      · next htop =>
        have hlt : ¬ (b + 1).toNat ≤ b.toNat := by
          rw [toNat_succ_of_ne_top htop]
          exact Nat.not_succ_le_self _
        rw [ih, if_neg hlt]
        exact peek_write_self m b value
    · have hne : b.toNat ≠ a.toNat := fun h => hab (BitVec.eq_of_toNat_eq h)
      have hold : (m.write a value).peek b = m.peek b := by rw [peek_write, if_neg hab]
      unfold fill
      split
      · next htop =>
        -- the run has ended at the top, and no other cell lies behind its start
        have hbelow : ¬ a.toNat ≤ b.toNat := by
          have hlt := b.isLt
          have htop' : a.toNat = 65535 := by rw [htop]; rfl
          omega
        rw [hold, if_neg hbelow]
      · next htop =>
        -- one step nearer to the cell, with one word less
        have hsucc := toNat_succ_of_ne_top htop
        rw [ih, hold, hsucc]
        by_cases hle : a.toNat ≤ b.toNat
        · have hlt : a.toNat + 1 ≤ b.toNat := by omega
          have hsub : b.toNat - a.toNat = (b.toNat - (a.toNat + 1)) + 1 := by omega
          rw [if_pos hlt, if_pos hle, hsub, List.getElem?_cons_succ]
        · have hlt : ¬ a.toNat + 1 ≤ b.toNat := by omega
          rw [if_neg hlt, if_neg hle]

/-- The memory `after` is `before` with some words in the cells from an address on, and is like it
in everything else. -/
structure Overwrites (before after : Memory) (a : Word) (words : List Word) : Prop where
  /-- There are cells for all of the words. -/
  fits : words.length ≤ 65536 - a.toNat
  inside : ∀ i (hi : i < words.length), after.peek (BitVec.ofNat 16 (a.toNat + i)) = words[i]
  outside : ∀ b : Word, b.toNat < a.toNat ∨ a.toNat + words.length ≤ b.toNat →
    after.peek b = before.peek b
  keyboard : after.keyboard = before.keyboard

/-- A run of words overwrites as many cells as there are up to the top, and nothing else. -/
theorem overwrites_fill (m : Memory) (a : Word) (values : List Word) :
    m.Overwrites (m.fill a values) a (values.take (capacityFrom a)) where
  fits := List.length_take_le _ _
  inside i hi := by
    have hlength := hi
    rw [List.length_take] at hlength
    have hroom : i < capacityFrom a := Nat.lt_of_lt_of_le hlength (Nat.min_le_left _ _)
    have hvalue : i < values.length := Nat.lt_of_lt_of_le hlength (Nat.min_le_right _ _)
    have hnat : (BitVec.ofNat 16 (a.toNat + i)).toNat = a.toNat + i := by
      unfold capacityFrom at hroom
      rw [BitVec.toNat_ofNat]
      exact Nat.mod_eq_of_lt (by omega)
    rw [peek_fill, hnat, if_pos (Nat.le_add_right _ _), Nat.add_sub_cancel_left,
      List.getElem?_eq_getElem hvalue, List.getElem_take]
    rfl
  outside b hb := by
    rw [List.length_take] at hb
    rw [peek_fill]
    split
    · next hle =>
      -- there is no cell beyond the room, so the run ends before this one
      have hend : values.length ≤ b.toNat - a.toNat := by
        have hlt := b.isLt
        unfold capacityFrom at hb
        omega
      rw [List.getElem?_eq_none hend]
      rfl
    · rfl
  keyboard := keyboard_fill m a values

end Memory

/-! ### Bytes to words -/

namespace Image

/-- Word number `i` of a byte sequence is made of its bytes `2 * i` and `2 * i + 1`. -/
theorem getElem?_pairs : ∀ (bytes : List Byte) (i : ℕ),
    (pairs bytes).1[i]? =
      (bytes[2 * i]?).bind fun high => (bytes[2 * i + 1]?).map fun low => .ofBytes high low
  | [], i => by simp
  | [last], i => by
    rw [pairs_singleton]
    cases i with
    | zero => rfl
    | succ i => rfl
  | high :: low :: rest, i => by
    rw [pairs_cons_cons]
    cases i with
    | zero => rfl
    | succ i => exact getElem?_pairs rest i

theorem length_pairs : ∀ bytes : List Byte, (pairs bytes).1.length = bytes.length / 2
  | [] => rfl
  | [last] => by
    rw [pairs_singleton, List.length_singleton]
    rfl
  | high :: low :: rest => by
    rw [pairs_cons_cons, List.length_cons, length_pairs rest, List.length_cons, List.length_cons]
    omega

/-- Both bytes of a complete word are there. -/
theorem exists_getElem?_pairs {bytes : List Byte} {i : ℕ} (hi : i < bytes.length / 2) :
    ∃ high low, bytes[2 * i]? = some high ∧ bytes[2 * i + 1]? = some low ∧
      (pairs bytes).1[i]? = some (.ofBytes high low) := by
  have hlow : 2 * i + 1 < bytes.length := by omega
  have hhigh : 2 * i < bytes.length := Nat.lt_of_succ_lt hlow
  refine ⟨bytes[2 * i], bytes[2 * i + 1], List.getElem?_eq_getElem hhigh,
    List.getElem?_eq_getElem hlow, ?_⟩
  rw [getElem?_pairs, List.getElem?_eq_getElem hhigh, List.getElem?_eq_getElem hlow]
  rfl

/-- A byte behind complete words adds no word. -/
theorem pairs_append_singleton : ∀ {bytes : List Byte}, bytes.length % 2 = 0 → ∀ last : Byte,
    (pairs (bytes ++ [last])).1 = (pairs bytes).1
  | [], _, _ => rfl
  | [_], h, _ => by simp at h
  | high :: low :: rest, h, last => by
    have hrest : rest.length % 2 = 0 := by
      rw [List.length_cons, List.length_cons] at h
      omega
    rw [List.cons_append, List.cons_append, pairs_cons_cons, pairs_cons_cons,
      pairs_append_singleton hrest]

end Image

/-! ### Loading -/

namespace Memory

variable (m : Memory)

/-- A sequence too short for an origin is refused, and nothing changes. -/
theorem load_of_length_lt {bytes : List Byte} (h : bytes.length < 2) :
    m.load bytes = .error .missingOrigin ∧ m.afterLoading bytes = m := by
  have hload : m.load bytes = .error .missingOrigin := by
    unfold load
    rw [(Image.ofBytes?_eq_none_iff bytes).2 h]
  refine ⟨hload, ?_⟩
  unfold afterLoading
  rw [hload]

/-- Any other sequence is loaded. -/
theorem load_cons_cons (high low : Byte) (payload : List Byte) :
    m.load (high :: low :: payload) =
      let image : Image := ⟨.ofBytes high low, (Image.pairs payload).1, (Image.pairs payload).2⟩
      .ok ⟨image.placement, m.place image, image.placingLog⟩ :=
  rfl

/-- What was written is loaded. -/
theorem load_toBytes (image : Image) :
    m.load image.toBytes = .ok ⟨image.placement, m.place image, image.placingLog⟩ := by
  unfold load
  rw [Image.ofBytes?_toBytes]

/-- **Loading places exactly the image.** A sequence of fewer than two bytes is refused. Any other
one is loaded: the words that have room below the top overwrite the cells from the origin on, the
report says how many these are and whether there were more, and a byte behind the last complete word
makes no difference. An image that was written as bytes is loaded as it was. -/
theorem load_exact (bytes : List Byte) :
    (bytes.length < 2 → m.load bytes = .error .missingOrigin ∧ m.afterLoading bytes = m) ∧
    (2 ≤ bytes.length → ∃ high low loaded words, bytes[0]? = some high ∧ bytes[1]? = some low ∧
      m.load bytes = .ok loaded ∧ m.afterLoading bytes = loaded.memory ∧
      let origin := Word.ofBytes high low
      let available := (bytes.length - 2) / 2
      let count := min available (65536 - origin.toNat)
      loaded.placement = ⟨origin, count, decide (65536 - origin.toNat < available)⟩ ∧
      words.length = count ∧
      (∀ i < count, ∃ high low, bytes[2 + 2 * i]? = some high ∧ bytes[3 + 2 * i]? = some low ∧
        words[i]? = some (.ofBytes high low)) ∧
      m.Overwrites loaded.memory origin words ∧
      (bytes.length % 2 = 0 → ∀ last, ∃ other, m.load (bytes ++ [last]) = .ok other ∧
        other.placement = loaded.placement ∧ other.memory = loaded.memory)) ∧
    ∀ image : Image, image.words.length ≤ 65536 - image.origin.toNat →
      ∃ loaded, m.load image.toBytes = .ok loaded ∧
        loaded.placement = ⟨image.origin, image.words.length, false⟩ ∧
        m.Overwrites loaded.memory image.origin image.words := by
  refine ⟨m.load_of_length_lt, ?loaded, ?written⟩
  case loaded =>
    intro hlong
    match bytes, hlong with
    | high :: low :: payload, _ =>
      let image : Image := ⟨.ofBytes high low, (Image.pairs payload).1, (Image.pairs payload).2⟩
      have hlength : image.words.length = payload.length / 2 := Image.length_pairs payload
      have havailable : ((high :: low :: payload).length - 2) / 2 = image.words.length :=
        hlength.symm
      refine ⟨high, low, ⟨image.placement, m.place image, image.placingLog⟩,
        image.words.take (capacityFrom image.origin), rfl, rfl, rfl, rfl, ?_⟩
      rw [havailable]
      refine ⟨rfl, ?length, ?bytes, overwrites_fill m image.origin image.words, ?odd⟩
      case length =>
        rw [List.length_take, Nat.min_comm]
        rfl
      case bytes =>
        intro i hi
        have hword : i < image.words.length := Nat.lt_of_lt_of_le hi (Nat.min_le_left _ _)
        have hroom : i < capacityFrom image.origin := Nat.lt_of_lt_of_le hi (Nat.min_le_right _ _)
        rw [hlength] at hword
        obtain ⟨high', low', hhigh, hlow, hpair⟩ := Image.exists_getElem?_pairs hword
        -- the origin stands before the words
        refine ⟨high', low', ?_, ?_, ?_⟩
        · rw [Nat.add_comm 2]
          exact hhigh
        · rw [Nat.add_comm 3]
          exact hlow
        · rw [List.getElem?_take_of_lt hroom]
          exact hpair
      case odd =>
        intro heven last
        have hpayload : payload.length % 2 = 0 := by
          rw [List.length_cons, List.length_cons] at heven
          omega
        have hpairs := Image.pairs_append_singleton hpayload last
        refine ⟨_, m.load_cons_cons high low (payload ++ [last]), ?_, ?_⟩
        · change Image.placement ⟨_, (Image.pairs (payload ++ [last])).1, _⟩ = _
          rw [hpairs]
          rfl
        · change m.fill _ (Image.pairs (payload ++ [last])).1 = _
          rw [hpairs]
          rfl
  case written =>
    intro image hfits
    refine ⟨_, m.load_toBytes image, ?_, ?_⟩
    · change Placement.mk image.origin (min image.words.length (65536 - image.origin.toNat))
        (decide (65536 - image.origin.toNat < image.words.length)) = _
      rw [Nat.min_eq_left hfits, decide_eq_false (Nat.not_lt.2 hfits)]
    · have htake : image.words.take (capacityFrom image.origin) = image.words :=
        List.take_of_length_le hfits
      have hall := overwrites_fill m image.origin image.words
      rwa [htake] at hall

end Memory

end LC3
