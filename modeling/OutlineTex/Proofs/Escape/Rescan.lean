/-
Escaped texts, scanned again.

What is written for a text is a text with math in it too. Escaping puts dollars and backslashes in
front of characters, and both mean something to a scan, so it could well tear a switch apart or put
one together. It does not. A switch is a backslash with a bracket behind it, brackets are written as
they stand, and nothing else begins with one. So in what is written for a text a character sees a
bracket behind it just if it did so in the text (`step_textFrom`).

By that each part of what is written can be scanned on its own, from the state before its character
on, and it leaves the state at its character behind: this is the induction below. In math the part
is the character itself. Outside math it is not in math, except for a sign that is put into math,
with the dollar before it.
-/
import Mathlib.Data.List.Forall2
import OutlineTex.Proofs.Escape.Fragments

set_option autoImplicit false

namespace OutlineTex.Escape

open Math (step after marked)

/-! ## The parts -/

theorem isMathSign_iff {c : Char} : isMathSign c = true ↔ c = '|' ∨ c = '<' ∨ c = '>' := by
  simp [isMathSign, or_assoc]

theorem takesBackslash_iff {c : Char} : takesBackslash c = true ↔ c = '_' ∨ c = '%' := by
  simp [takesBackslash]

theorem isInert_of_isMathSign {c : Char} (hc : isMathSign c = true) : Math.isInert c = true := by
  rcases isMathSign_iff.mp hc with rfl | rfl | rfl <;> rfl

theorem isInert_of_takesBackslash {c : Char} (hc : takesBackslash c = true) :
    Math.isInert c = true := by
  rcases takesBackslash_iff.mp hc with rfl | rfl <;> rfl

/-- All that can be written for a character outside math. -/
theorem part_outside (quoted : Bool) (c : Char) :
    (c = '"' ∧ part quoted (c, false) = openingQuote) ∨
      (c = '"' ∧ part quoted (c, false) = closingQuote) ∨
      (isMathSign c = true ∧ part quoted (c, false) = ['$', c, '$']) ∨
      (takesBackslash c = true ∧ part quoted (c, false) = ['\\', c]) ∨
      (c ≠ '"' ∧ isMathSign c = false ∧ takesBackslash c = false ∧
        part quoted (c, false) = [c]) := by
  by_cases hquote : c = '"'
  · subst hquote
    cases quoted with
    | false => exact .inl ⟨rfl, rfl⟩
    | true => exact .inr (.inl ⟨rfl, rfl⟩)
  · have hpart : part quoted (c, false) = sign c := if_neg (by simpa using hquote)
    rw [hpart, sign]
    cases hsign : isMathSign c <;> cases hbackslash : takesBackslash c <;> simp [hquote]

/-! ## Brackets -/

/-- What is written for a character begins with a bracket just if the character is this bracket. -/
theorem head?_part {bracket : Char} (hbracket : bracket = '[' ∨ bracket = ']') (quoted : Bool)
    (c : Char) (inMath : Bool) :
    (part quoted (c, inMath)).head? = some bracket ↔ c = bracket := by
  cases inMath with
  | true => simp [part]
  | false =>
    -- in place of another character a glyph, a dollar or a backslash comes first
    rcases part_outside quoted c with ⟨rfl, h⟩ | ⟨rfl, h⟩ | ⟨hc, h⟩ | ⟨hc, h⟩ | ⟨-, -, -, h⟩
    · rcases hbracket with rfl | rfl <;> simp [h, openingQuote]
    · rcases hbracket with rfl | rfl <;> simp [h, closingQuote]
    · rcases isMathSign_iff.mp hc with rfl | rfl | rfl <;>
        rcases hbracket with rfl | rfl <;> simp [h]
    · rcases takesBackslash_iff.mp hc with rfl | rfl <;>
        rcases hbracket with rfl | rfl <;> simp [h]
    · simp [h]

theorem part_ne_nil (quoted : Bool) (mark : Char × Bool) : part quoted mark ≠ [] := by
  obtain ⟨c, inMath⟩ := mark
  cases inMath with
  | true => simp [part]
  | false =>
    rcases part_outside quoted c with ⟨-, h⟩ | ⟨-, h⟩ | ⟨-, h⟩ | ⟨-, h⟩ | ⟨-, -, -, h⟩ <;>
      simp [h, openingQuote, closingQuote]

theorem head?_textFrom {bracket : Char} (hbracket : bracket = '[' ∨ bracket = ']')
    (state quoted : Bool) (s : List Char) :
    (textFrom state quoted s).head? = some bracket ↔ s.head? = some bracket := by
  cases s with
  | nil => rfl
  | cons c rest =>
    rw [textFrom_eq_flatten, Math.marked_cons, partsFrom, List.flatten_cons,
      List.head?_append, Option.or_of_isSome (List.isSome_head?.mpr (part_ne_nil quoted _)),
      head?_part hbracket, List.head?_cons, Option.some.injEq]

/-- In an escaped text a character does to the state what it does in the text itself. -/
theorem step_textFrom (before : Bool) (c : Char) (state quoted : Bool) (rest : List Char) :
    step before c (textFrom state quoted rest) = step before c rest := by
  have hopen := head?_textFrom (.inl rfl) state quoted rest
  have hclose := head?_textFrom (.inr rfl) state quoted rest
  simp only [step, Bool.and_eq_true, beq_iff_eq, hopen, hclose]

/-! ## Scanning part by part -/

/-- What comes of a character with its state when the part that is written for it is scanned
again. -/
inductive Rescans : Char × Bool → List (Char × Bool) → Prop
  /-- A character in math stands there as before. -/
  | inMath (c : Char) : Rescans (c, true) [(c, true)]
  /-- A sign that exists in math only is put into math. -/
  | intoMath {c : Char} (hsign : isMathSign c = true) :
      Rescans (c, false) [('$', true), (c, true), ('$', false)]
  /-- All else stays outside math, where none of these signs is left and no double quote. -/
  | outside {c : Char} {piece : List (Char × Bool)} (hsign : isMathSign c = false)
      (hpiece : ∀ mark ∈ piece, mark.2 = false ∧ mark.1 ≠ '"' ∧ isMathSign mark.1 = false) :
      Rescans (c, false) piece

/-- The part that is written for a character is scanned from the state before the character on, and
the state at the character is left behind it. -/
theorem exists_rescans (state quoted : Bool) (c : Char) (tail : List Char) :
    ∃ piece, piece.map Prod.fst = part quoted (c, step state c tail) ∧
      Rescans (c, step state c tail) piece ∧
      marked state (part quoted (c, step state c tail) ++ tail) =
        piece ++ marked (step state c tail) tail ∧
      after state (part quoted (c, step state c tail) ++ tail) =
        after (step state c tail) tail := by
  cases hstate : step state c tail with
  | true =>
    refine ⟨[(c, true)], rfl, .inMath c, ?_, ?_⟩
    · rw [part, List.singleton_append, Math.marked_cons, hstate]
      rfl
    · rw [part, List.singleton_append, after, hstate]
  | false =>
    -- an inert character is outside math only if the state before it was
    have hbefore : Math.isInert c = true → state = false := fun hinert =>
      (Math.step_of_isInert hinert state tail).symm.trans hstate
    rcases part_outside quoted c with ⟨rfl, h⟩ | ⟨rfl, h⟩ | ⟨hc, h⟩ | ⟨hc, h⟩ | ⟨hquote, hc, -, h⟩
    · obtain rfl := hbefore rfl
      rw [h]
      exact ⟨openingQuote.map fun d => (d, false), rfl, .outside rfl (by decide), rfl, rfl⟩
    · obtain rfl := hbefore rfl
      rw [h]
      exact ⟨closingQuote.map fun d => (d, false), rfl, .outside rfl (by decide), rfl, rfl⟩
    · obtain rfl := hbefore (isInert_of_isMathSign hc)
      rw [h]
      rcases isMathSign_iff.mp hc with rfl | rfl | rfl <;>
        exact ⟨[('$', true), (_, true), ('$', false)], rfl, .intoMath rfl, rfl, rfl⟩
    · obtain rfl := hbefore (isInert_of_takesBackslash hc)
      rw [h]
      rcases takesBackslash_iff.mp hc with rfl | rfl <;>
        exact ⟨[('\\', false), (_, false)], rfl, .outside rfl (by decide), rfl, rfl⟩
    · rw [h, List.singleton_append, Math.marked_cons, after, hstate]
      exact ⟨[(c, false)], rfl, .outside hc (by simp [hquote, hc]), rfl, rfl⟩

/-- What is written for a text is scanned again part by part, and in the end the state is that of
the text. -/
theorem exists_pieces (state quoted : Bool) (s : List Char) :
    ∃ pieces, pieces.map (List.map Prod.fst) = partsFrom quoted (marked state s) ∧
      List.Forall₂ Rescans (marked state s) pieces ∧
      marked state (textFrom state quoted s) = pieces.flatten ∧
      after state (textFrom state quoted s) = after state s := by
  induction s generalizing state quoted with
  | nil => exact ⟨[], rfl, .nil, rfl, rfl⟩
  | cons c rest ih =>
    obtain ⟨pieces, hparts, hrescans, hmarked, hafter⟩ :=
      ih (step state c rest) (quotedBehind quoted [(c, step state c rest)])
    obtain ⟨piece, hpart, hpiece, hfirst, hbehind⟩ := exists_rescans state quoted c
      (textFrom (step state c rest) (quotedBehind quoted [(c, step state c rest)]) rest)
    rw [step_textFrom] at hpart hpiece hfirst hbehind
    refine ⟨piece :: pieces, ?_, .cons hpiece hrescans, ?_, ?_⟩
    · rw [List.map_cons, hpart, hparts]
      rfl
    · rw [textFrom_cons, hfirst, hmarked, List.flatten_cons]
    · rw [textFrom_cons, hbehind, hafter]
      rfl

theorem after_text (state : Bool) (s : List Char) : after state (text state s) = after state s := by
  obtain ⟨-, -, -, -, hafter⟩ := exists_pieces state false s
  exact hafter

/-- No double quote and no sign that exists in math only is left outside math. -/
theorem Rescans.not_mem {mark : Char × Bool} {piece : List (Char × Bool)} (h : Rescans mark piece)
    {c : Char} (hc : c = '"' ∨ isMathSign c = true) : (c, false) ∉ piece := by
  intro hmem
  cases h with
  | inMath d => simp at hmem
  | intoMath hsign =>
    obtain rfl : c = '$' := by simpa using hmem
    exact hc.elim (by decide) (by decide)
  | outside hsign hpiece =>
    obtain ⟨-, hquote, hmath⟩ := hpiece (c, false) hmem
    exact hc.elim hquote (by simp [hmath])

/-- **Escaped texts keep their math.** When what is written for a text is scanned again, the state
in the end is that behind the text. Outside math there is no double quote in it and no sign that
exists in math only. Each character in math stands there as before and in math again, in order, and
nothing else is in math but the signs that were put into it, each with the dollar before it. -/
theorem rescanned_text (state : Bool) (s : List Char) :
    (Math.trace state (text state s)).getLast?.getD state = after state s ∧
      (('"', false) ∉ marked state (text state s) ∧ ('|', false) ∉ marked state (text state s) ∧
        ('<', false) ∉ marked state (text state s) ∧ ('>', false) ∉ marked state (text state s)) ∧
      ∃ pieces, pieces.map (List.map Prod.fst) = parts state s ∧
        List.Forall₂ Rescans (marked state s) pieces ∧
        marked state (text state s) = pieces.flatten := by
  obtain ⟨pieces, hparts, hrescans, hmarked, -⟩ := exists_pieces state false s
  have hpieces : ∀ piece ∈ pieces, ∀ c, c = '"' ∨ isMathSign c = true → (c, false) ∉ piece :=
    ((List.forall₂_and_left _ _).mp
      (hrescans.flip.imp fun _ _ h => ⟨fun _ hc => h.not_mem hc, h⟩)).1
  have hraw : ∀ c, c = '"' ∨ isMathSign c = true → (c, false) ∉ marked state (text state s) := by
    intro c hc hmem
    rw [text, hmarked] at hmem
    obtain ⟨piece, hpiece, hmem⟩ := List.mem_flatten.mp hmem
    exact hpieces piece hpiece c hc hmem
  exact ⟨(Math.after_eq_getLast state (text state s)).symm.trans (after_text state s),
    ⟨hraw _ (.inl rfl), hraw _ (.inr rfl), hraw _ (.inr rfl), hraw _ (.inr rfl)⟩,
    pieces, hparts, hrescans, hmarked⟩

example : text false "a|b \\[c|d\\]".toList = "a$|$b \\[c|d\\]".toList := by decide

end OutlineTex.Escape
