/-
Blocks of backslashes before percent signs and underscores.

To the typesetter a percent sign begins a comment and an underscore a subscript, unless an odd
number of backslashes stands before it: two of them in a row are a command of their own. Escaping
puts one backslash before each such sign outside math and does not look at what is there already.

All else that is written in place of a character ends in no backslash, unless the character is one.
So the block of backslashes at the end of a text is as long as at the end of what is written for the
text (`backslashes_flatten`), and before a sign it is longer by one in what is written. An escaped
text is harmless, then, just if the blocks in the text are even. A sign that was escaped by hand has
an odd one, and it is set free.
-/
import Mathlib.Data.List.DropRight
import Mathlib.Data.List.Induction
import OutlineTex.Proofs.Escape.Rescan

set_option autoImplicit false

namespace OutlineTex.Escape

open Math (after marked)

/-- The length of the block of backslashes at the end of a text. -/
def backslashes (s : List Char) : Nat :=
  (s.rtakeWhile (· == '\\')).length

/-- The lengths of the blocks of backslashes before the percent signs and the underscores outside
math of a text, as far as there are any, are of some kind. -/
def BlocksAre (kind : Nat → Prop) (state : Bool) (s : List Char) : Prop :=
  ∀ place c, takesBackslash c = true → (marked state s)[place]? = some (c, false) →
    kind (backslashes (s.take place))

/-! ## The ends of texts -/

/-- Only a backslash makes the block longer, and anything else ends it. -/
theorem backslashes_concat (s : List Char) (c : Char) :
    backslashes (s ++ [c]) = if c = '\\' then backslashes s + 1 else 0 := by
  by_cases hc : c = '\\' <;> simp [backslashes, hc]

theorem backslashes_append_of_ne (s : List Char) {ending : List Char} (hne : ending ≠ [])
    (hlast : ending.getLast hne ≠ '\\') : backslashes (s ++ ending) = 0 := by
  rw [← List.dropLast_append_getLast hne, ← List.append_assoc, backslashes_concat, if_neg hlast]

/-- What is written for a character goes on with a block of backslashes just if the character
does. -/
theorem backslashes_append_part (s : List Char) (quoted : Bool) (mark : Char × Bool) :
    backslashes (s ++ part quoted mark) = backslashes (s ++ [mark.1]) := by
  obtain ⟨c, inMath⟩ := mark
  cases inMath with
  | true => rfl
  | false =>
    have hends : ∀ {ending : List Char} (hne : ending ≠ []), c ≠ '\\' →
        ending.getLast hne ≠ '\\' → backslashes (s ++ ending) = backslashes (s ++ [c]) := by
      intro ending hne hc hlast
      rw [backslashes_append_of_ne s hne hlast, backslashes_concat, if_neg hc]
    rcases part_outside quoted c with ⟨rfl, h⟩ | ⟨rfl, h⟩ | ⟨hc, h⟩ | ⟨hc, h⟩ | ⟨-, -, -, h⟩ <;>
      rw [h]
    · exact hends (by decide) (by decide) (by decide)
    · exact hends (by decide) (by decide) (by decide)
    · rcases isMathSign_iff.mp hc with rfl | rfl | rfl <;>
        exact hends (by decide) (by decide) (by decide)
    · rcases takesBackslash_iff.mp hc with rfl | rfl <;>
        exact hends (by decide) (by decide) (by decide)

/-- Characters and what is written for them end in equal blocks of backslashes. -/
theorem backslashes_flatten (quoted : Bool) (marks : List (Char × Bool)) :
    backslashes (partsFrom quoted marks).flatten = backslashes (marks.map Prod.fst) := by
  induction marks using List.reverseRecOn with
  | nil => rfl
  | append_singleton marks mark ih =>
    rw [partsFrom_append, List.flatten_append, partsFrom, partsFrom, List.flatten_singleton,
      backslashes_append_part, List.map_append, List.map_singleton, backslashes_concat,
      backslashes_concat, ih]

theorem backslashes_text (state : Bool) (s : List Char) :
    backslashes (text state s) = backslashes s := by
  rw [text_eq_flatten, parts, backslashes_flatten, Math.map_fst_marked]

/-! ## Signs and what they stand for -/

/-- Only for the sign itself is one written that takes a backslash, and it has taken it. -/
theorem part_eq_sign {quoted : Bool} {c d : Char} {before behind : List Char}
    (hc : takesBackslash c = true) (h : part quoted (d, false) = before ++ c :: behind) :
    d = c ∧ before = ['\\'] := by
  have hmem : c ∈ part quoted (d, false) := by simp [h]
  rcases part_outside quoted d with ⟨-, hd⟩ | ⟨-, hd⟩ | ⟨hsign, hd⟩ | ⟨-, hd⟩ | ⟨-, -, hplain, hd⟩ <;>
    rw [hd] at h hmem
  · rcases takesBackslash_iff.mp hc with rfl | rfl <;> exact absurd hmem (by decide)
  · rcases takesBackslash_iff.mp hc with rfl | rfl <;> exact absurd hmem (by decide)
  · rcases isMathSign_iff.mp hsign with rfl | rfl | rfl <;>
      rcases takesBackslash_iff.mp hc with rfl | rfl <;> exact absurd hmem (by decide)
  · cases before with
    | nil =>
      obtain rfl : '\\' = c := List.head_eq_of_cons_eq h
      exact absurd hc (by decide)
    | cons e before =>
      obtain ⟨rfl, hrest⟩ := List.cons.inj h
      obtain ⟨rfl, hd⟩ | ⟨-, hd⟩ := List.singleton_eq_append_iff.mp hrest
      · exact ⟨(List.head_eq_of_cons_eq hd).symm, rfl⟩
      · exact absurd hd (List.cons_ne_nil c behind)
  · obtain rfl : c = d := List.mem_singleton.mp hmem
    exact absurd hc (by simp [hplain])

theorem Rescans.eq_false_of_mem {inMath : Bool} {c d : Char} {piece : List (Char × Bool)}
    (h : Rescans (d, inMath) piece) (hmem : (c, false) ∈ piece) : inMath = false := by
  cases h with
  | inMath => simp at hmem
  | intoMath => rfl
  | outside => rfl

/-- An entry of two lists, one behind the other, is in the first of them or in the second. -/
theorem append_eq_append_cons {α : Type} {first second before behind : List α} {x : α}
    (h : first ++ second = before ++ x :: behind) :
    (∃ between, first = before ++ x :: between) ∨
      ∃ between, before = first ++ between ∧ second = between ++ x :: behind := by
  rcases List.append_eq_append_iff.mp h with ⟨between, hbefore, hsecond⟩ | ⟨between, hfirst, hbehind⟩
  · exact .inr ⟨between, hbefore, hsecond⟩
  · cases between with
    | nil => exact .inr ⟨[], by simpa using hfirst.symm, hbehind.symm⟩
    | cons y between =>
      obtain ⟨rfl, -⟩ := List.cons.inj hbehind
      exact .inl ⟨between, hfirst⟩

/-- A sign outside math in an escaped text stands for a sign outside math in the text. What is
before it is what is written for the text before that sign, and a backslash. -/
theorem exists_sign {state quoted : Bool} {s : List Char} {c : Char}
    {before behind : List (Char × Bool)} (hc : takesBackslash c = true)
    (h : marked state (textFrom state quoted s) = before ++ (c, false) :: behind) :
    ∃ front rest, s = front ++ c :: rest ∧ after state front = false ∧
      before.map Prod.fst = textFrom state quoted front ++ ['\\'] := by
  induction s generalizing state quoted before with
  | nil => simp [textFrom] at h
  | cons d rest ih =>
    obtain ⟨piece, hpart, hpiece, hfirst, -⟩ := exists_rescans state quoted d
      (textFrom (Math.step state d rest) (quotedBehind quoted [(d, Math.step state d rest)]) rest)
    rw [step_textFrom] at hpart hpiece hfirst
    rw [textFrom_cons, hfirst] at h
    rcases append_eq_append_cons h with ⟨between, rfl⟩ | ⟨later, rfl, hrest⟩
    · have hmem : (c, false) ∈ before ++ (c, false) :: between := by simp
      have hstep : Math.step state d rest = false := hpiece.eq_false_of_mem hmem
      rw [hstep, List.map_append, List.map_cons] at hpart
      obtain ⟨rfl, hbefore⟩ := part_eq_sign hc hpart.symm
      rw [Math.step_of_isInert (isInert_of_takesBackslash hc)] at hstep
      exact ⟨[], rest, rfl, hstep, hbefore⟩
    · obtain ⟨front, rest, rfl, hafter, hlater⟩ := ih hrest
      -- what stands behind the text before the sign makes no difference to this text
      have hstep : Math.step state d (front ++ c :: rest) = Math.step state d front :=
        Math.step_append (Math.apart_of_isInert (isInert_of_takesBackslash hc) (d :: front) rest)
      rw [hstep] at hpart hafter hlater
      refine ⟨d :: front, rest, rfl, hafter, ?_⟩
      rw [List.map_append, hpart, hlater, textFrom_cons, List.append_assoc]

/-- Conversely, a sign outside math in a text is found behind a backslash in what is written for the
text, and outside math again. -/
theorem text_sign {state : Bool} {front : List Char} {c : Char} (hc : takesBackslash c = true)
    (hafter : after state front = false) (rest : List Char) :
    (text state front ++ ['\\']) ++ [c] <+: text state (front ++ c :: rest) ∧
      after state (text state front ++ ['\\']) = false := by
  have hinert := isInert_of_takesBackslash hc
  constructor
  · have hpart : ∀ quoted, part quoted (c, false) = ['\\', c] := by
      intro quoted
      rcases takesBackslash_iff.mp hc with rfl | rfl <;> rfl
    rw [text_append (Math.apart_of_isInert hinert front rest), hafter, textFrom_cons,
      Math.step_of_isInert hinert, hpart]
    simp
  · have hborder : Math.Apart (text state front) ['\\'] := by simp [Math.Apart]
    rw [Math.after_append hborder, after_text, hafter]
    rfl

section Signs

variable {state : Bool} {s : List Char} {c : Char} (hc : takesBackslash c = true)
include hc

theorem exists_origin {place : Nat} (h : (marked state (text state s))[place]? = some (c, false)) :
    ∃ origin, (marked state s)[origin]? = some (c, false) ∧
      (text state s).take place = text state (s.take origin) ++ ['\\'] := by
  obtain ⟨before, behind, hsplit, rfl⟩ := Math.exists_split h
  obtain ⟨front, rest, rfl, hafter, hbefore⟩ := exists_sign hc hsplit
  refine ⟨front.length, ?_, ?_⟩
  · exact (Math.getElem?_marked_iff (isInert_of_takesBackslash hc)).mpr
      ⟨front, rest, rfl, rfl, hafter⟩
  · rw [← Math.map_fst_marked state (text state (front ++ c :: rest)), hsplit, List.map_append,
      ← List.length_map Prod.fst, List.take_left, List.take_left, hbefore]
    rfl

theorem exists_place {origin : Nat} (h : (marked state s)[origin]? = some (c, false)) :
    ∃ place, (marked state (text state s))[place]? = some (c, false) ∧
      (text state s).take place = text state (s.take origin) ++ ['\\'] := by
  have hinert := isInert_of_takesBackslash hc
  obtain ⟨front, rest, rfl, rfl, hafter⟩ := (Math.getElem?_marked_iff hinert).mp h
  obtain ⟨⟨behind, hbehind⟩, houtside⟩ := text_sign hc hafter rest
  rw [List.append_assoc _ [c], List.singleton_append] at hbehind
  rw [List.take_left]
  refine ⟨(text state front ++ ['\\']).length, ?_, ?_⟩
  · exact (Math.getElem?_marked_iff hinert).mpr ⟨_, behind, hbehind.symm, rfl, houtside⟩
  · rw [← hbehind, List.take_left]

end Signs

/-- In an escaped text all blocks are longer by one than in the text. -/
theorem blocksAre_text {kind : Nat → Prop} {state : Bool} {s : List Char} :
    BlocksAre kind state (text state s) ↔ BlocksAre (fun n => kind (n + 1)) state s := by
  constructor
  · intro h origin c hc horigin
    obtain ⟨place, hplace, htake⟩ := exists_place hc horigin
    have hkind := h place c hc hplace
    rwa [htake, backslashes_concat, if_pos rfl, backslashes_text] at hkind
  · intro h place c hc hplace
    obtain ⟨origin, horigin, htake⟩ := exists_origin hc hplace
    rw [htake, backslashes_concat, if_pos rfl, backslashes_text]
    exact h origin c hc horigin

/-! ## Harmless texts -/

/-- **Signs in escaped texts.** Every percent sign and every underscore outside math of an escaped
text stands for one outside math of the text. Before it is what is written for the text before that
one, and a backslash, so its block of backslashes is longer by one. An escaped text is harmless,
therefore, just if the blocks of backslashes in the text are even. -/
theorem odd_blocks_text_iff (state : Bool) (s : List Char) :
    (∀ place c, takesBackslash c = true →
        (marked state (text state s))[place]? = some (c, false) →
        ∃ origin, (marked state s)[origin]? = some (c, false) ∧
          (text state s).take place = text state (s.take origin) ++ ['\\'] ∧
          backslashes ((text state s).take place) = backslashes (s.take origin) + 1) ∧
      (BlocksAre Odd state (text state s) ↔ BlocksAre Even state s) := by
  constructor
  · intro place c hc hplace
    obtain ⟨origin, horigin, htake⟩ := exists_origin hc hplace
    refine ⟨origin, horigin, htake, ?_⟩
    rw [htake, backslashes_concat, if_pos rfl, backslashes_text]
  · simp only [blocksAre_text, Nat.odd_add_one, Nat.not_odd_iff_even]

/-- Behind two backslashes a percent sign takes a third one, and an underscore that was escaped by
hand gets a second one. -/
theorem odd_blocks_text_iff_mixed :
    let s := "\\\\% \\_".toList
    takesBackslash '_' = true ∧ (marked false (text false s))[7]? = some ('_', false) ∧
      backslashes ((text false s).take 3) = 3 ∧ backslashes ((text false s).take 7) = 2 ∧
      (∃ origin, (marked false s)[origin]? = some ('_', false) ∧
        (text false s).take 7 = text false (s.take origin) ++ ['\\'] ∧
        backslashes ((text false s).take 7) = backslashes (s.take origin) + 1) ∧
      (BlocksAre Odd false (text false s) ↔ BlocksAre Even false s) := by
  intro s
  obtain ⟨horigin, hharmless⟩ := odd_blocks_text_iff false s
  exact ⟨rfl, by decide, by decide, by decide, horigin 7 '_' rfl (by decide), hharmless⟩

/-- A percent sign that was escaped by hand begins a comment once it is escaped. -/
theorem even_block_behind_backslash :
    text false "\\%".toList = "\\\\%".toList ∧
      ¬ BlocksAre Odd false (text false "\\%".toList) := by
  refine ⟨by decide, fun h => ?_⟩
  have hodd : Odd (backslashes ((text false "\\%".toList).take 2)) := h 2 '%' rfl (by decide)
  exact absurd hodd (by decide)

end OutlineTex.Escape
