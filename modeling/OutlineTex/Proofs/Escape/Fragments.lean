/-
Texts that are escaped piece by piece.

The lines of a list of siblings are escaped one after the other. From each to the next the math
state goes on, but the turn of the quotes starts anew, and no line looks at the one behind it. This
file says when that is the same as escaping them as one text.

Scanning looks one character ahead, so two texts may be scanned one after the other unless a switch
would stand across the border. Escaping is what is written for the characters with their states,
one after the other, and what it carries along on the way is whether a quote is open. That is
settled by how many quotes stood outside math so far: it is `quotedBehind` that the induction over
the first text is about.
-/
import Mathlib.Algebra.Ring.Parity
import OutlineTex.Escape

set_option autoImplicit false

namespace OutlineTex

/-! ## Scanning -/

namespace Math

/-- Whether a sum is odd, from its parts: how toggles add up. -/
theorem decide_odd_add (m n : Nat) : decide (Odd (m + n)) = (decide (Odd m) ^^ decide (Odd n)) := by
  by_cases hm : Odd m <;> by_cases hn : Odd n <;> simp [Nat.odd_add, ← Nat.not_odd_iff_even, hm, hn]

/-- The characters of a text, each with the state at it. -/
def marked (state : Bool) (s : List Char) : List (Char × Bool) :=
  s.zip (trace state s)

/-- No switch stands across the border of two texts. -/
def Apart (first second : List Char) : Prop :=
  ¬ (first.getLast? = some '\\' ∧ (second.head? = some '[' ∨ second.head? = some ']'))

instance (first second : List Char) : Decidable (Apart first second) :=
  inferInstanceAs (Decidable (¬ _))

@[simp] theorem marked_nil (state : Bool) : marked state [] = [] := rfl

theorem marked_cons (state : Bool) (c : Char) (rest : List Char) :
    marked state (c :: rest) =
      (c, step state c rest) :: marked (step state c rest) rest := rfl

theorem length_trace (state : Bool) (s : List Char) : (trace state s).length = s.length := by
  induction s generalizing state with
  | nil => rfl
  | cons c rest ih => rw [trace, List.length_cons, List.length_cons, ih]

theorem map_fst_marked (state : Bool) (s : List Char) : (marked state s).map Prod.fst = s := by
  rw [marked, List.map_fst_zip (Nat.le_of_eq (length_trace state s).symm)]

theorem Apart.of_cons {c : Char} {first second : List Char} (h : Apart (c :: first) second) :
    Apart first second := by
  intro hborder
  refine h ⟨?_, hborder.2⟩
  rw [List.getLast?_cons, hborder.1]
  rfl

/-- What a character does to the state depends on the text behind it, and not on what is behind
that. -/
theorem step_append {state : Bool} {c : Char} {first second : List Char}
    (h : Apart (c :: first) second) : step state c (first ++ second) = step state c first := by
  cases first with
  | cons d first => rfl
  | nil =>
    by_cases hc : c = '\\'
    · subst hc
      have hheads : ¬ (second.head? = some '[' ∨ second.head? = some ']') := fun hheads =>
        h ⟨rfl, hheads⟩
      obtain ⟨hopen, hclose⟩ := not_or.mp hheads
      simp [step, hopen, hclose]
    · simp [step, hc]

theorem trace_append {state : Bool} {first second : List Char} (h : Apart first second) :
    trace state (first ++ second) = trace state first ++ trace (after state first) second := by
  induction first generalizing state with
  | nil => rfl
  | cons c first ih =>
    rw [List.cons_append, trace, step_append h, ih h.of_cons]
    rfl

theorem after_append {state : Bool} {first second : List Char} (h : Apart first second) :
    after state (first ++ second) = after (after state first) second := by
  induction first generalizing state with
  | nil => rfl
  | cons c first ih =>
    rw [List.cons_append, after, step_append h, ih h.of_cons]
    rfl

theorem marked_append {state : Bool} {first second : List Char} (h : Apart first second) :
    marked state (first ++ second) = marked state first ++ marked (after state first) second := by
  rw [marked, trace_append h, List.zip_append (length_trace state first).symm]
  rfl

theorem length_marked (state : Bool) (s : List Char) : (marked state s).length = s.length := by
  rw [marked, List.length_zip, length_trace, Nat.min_self]

/-! ## Characters without a meaning to a scan -/

/-- A character that does nothing to the state and is no part of a switch. -/
def isInert (c : Char) : Bool :=
  !(c == '$' || c == '\\' || c == '[' || c == ']')

/-- A place of a list cuts it in two. -/
theorem exists_split {α : Type} {l : List α} {place : Nat} {x : α} (h : l[place]? = some x) :
    ∃ front rest, l = front ++ x :: rest ∧ front.length = place := by
  obtain ⟨hplace, rfl⟩ := List.getElem?_eq_some_iff.mp h
  refine ⟨l.take place, l.drop (place + 1), ?_, List.length_take_of_le (Nat.le_of_lt hplace)⟩
  rw [List.getElem_cons_drop, List.take_append_drop]

section Inert

variable {c : Char} (hc : isInert c = true)
include hc

theorem apart_of_isInert (front rest : List Char) : Apart front (c :: rest) := by
  rintro ⟨-, hbracket | hbracket⟩ <;> obtain rfl := Option.some.inj hbracket <;>
    exact absurd hc (by decide)

theorem step_of_isInert (state : Bool) (rest : List Char) : step state c rest = state := by
  have hne : ((c ≠ '$' ∧ c ≠ '\\') ∧ c ≠ '[') ∧ c ≠ ']' := by simpa [isInert, not_or] using hc
  simp [step, hne.1.1]

/-- An inert character stands at a place of a text with the state that the text before it leaves. -/
theorem getElem?_marked_iff {state inMath : Bool} {s : List Char} {place : Nat} :
    (marked state s)[place]? = some (c, inMath) ↔
      ∃ front rest, s = front ++ c :: rest ∧ front.length = place ∧ after state front = inMath := by
  have hmark : ∀ front rest, (marked state (front ++ c :: rest))[front.length]? =
      some (c, after state front) := by
    intro front rest
    -- the character does nothing itself, so its state is that behind the text before it
    rw [marked_append (apart_of_isInert hc front rest), ← length_marked state front,
      List.getElem?_append_right (Nat.le_refl _), Nat.sub_self, marked_cons,
      step_of_isInert hc]
    rfl
  constructor
  · intro h
    obtain ⟨hget, -⟩ := List.getElem?_zip_eq_some.mp h
    obtain ⟨front, rest, rfl, rfl⟩ := exists_split hget
    rw [hmark] at h
    exact ⟨front, rest, rfl, rfl, congrArg Prod.snd (Option.some.inj h)⟩
  · rintro ⟨front, rest, rfl, rfl, rfl⟩
    exact hmark front rest

end Inert

end Math

/-! ## What is written for each character -/

namespace Escape

/-- What is written for a character with its state; `quoted` tells whether a quote is open. -/
def part (quoted : Bool) : Char × Bool → List Char
  | (c, true) => [c]
  | (c, false) => if c == '"' then (if quoted then closingQuote else openingQuote) else sign c

/-- Whether a quote is open behind characters: the quotes outside math open and close in turn. -/
def quotedBehind (quoted : Bool) (marks : List (Char × Bool)) : Bool :=
  quoted ^^ decide (Odd (marks.count ('"', false)))

/-- What is written for each of some characters. -/
def partsFrom (quoted : Bool) : List (Char × Bool) → List (List Char)
  | [] => []
  | mark :: rest => part quoted mark :: partsFrom (quotedBehind quoted [mark]) rest

/-- What is written for each character of a text. -/
def parts (state : Bool) (s : List Char) : List (List Char) :=
  partsFrom false (Math.marked state s)

theorem quotedBehind_nil (quoted : Bool) : quotedBehind quoted [] = quoted := by
  simp [quotedBehind]

theorem quotedBehind_append (quoted : Bool) (first second : List (Char × Bool)) :
    quotedBehind quoted (first ++ second) = quotedBehind (quotedBehind quoted first) second := by
  simp only [quotedBehind, List.count_append, Math.decide_odd_add, Bool.xor_assoc]

/-- Behind an even number of quotes outside math the turn of the quotes is as before. -/
theorem quotedBehind_of_even {quoted : Bool} {marks : List (Char × Bool)}
    (h : Even (marks.count ('"', false))) : quotedBehind quoted marks = quoted := by
  rw [quotedBehind, decide_eq_false (Nat.not_odd_iff_even.mpr h), Bool.xor_false]

theorem quotedBehind_quote (quoted : Bool) : quotedBehind quoted [('"', false)] = !quoted := by
  simp [quotedBehind]

theorem quotedBehind_of_ne {quoted : Bool} {mark : Char × Bool} (h : mark ≠ ('"', false)) :
    quotedBehind quoted [mark] = quoted :=
  quotedBehind_of_even (by simp [h])

theorem partsFrom_append (quoted : Bool) (first second : List (Char × Bool)) :
    partsFrom quoted (first ++ second) =
      partsFrom quoted first ++ partsFrom (quotedBehind quoted first) second := by
  induction first generalizing quoted with
  | nil => rw [List.nil_append, quotedBehind_nil, partsFrom, List.nil_append]
  | cons mark first ih =>
    rw [List.cons_append, partsFrom, ih, partsFrom, List.cons_append, ← quotedBehind_append]
    rfl

theorem textFrom_cons (state quoted : Bool) (c : Char) (rest : List Char) :
    textFrom state quoted (c :: rest) =
      part quoted (c, Math.step state c rest) ++
        textFrom (Math.step state c rest) (quotedBehind quoted [(c, Math.step state c rest)])
          rest := by
  rw [textFrom]
  cases Math.step state c rest with
  | true =>
    rw [if_pos rfl, quotedBehind_of_ne (by simp)]
    rfl
  | false =>
    rw [if_neg Bool.false_ne_true, part]
    by_cases hc : c = '"'
    · subst hc
      rw [if_pos (beq_self_eq_true _), if_pos (beq_self_eq_true _), quotedBehind_quote]
    · rw [if_neg (by simpa using hc), if_neg (by simpa using hc),
        quotedBehind_of_ne (by simpa using hc)]

/-- An escaped text is what is written for its characters, one after the other. -/
theorem textFrom_eq_flatten (state quoted : Bool) (s : List Char) :
    textFrom state quoted s = (partsFrom quoted (Math.marked state s)).flatten := by
  induction s generalizing state quoted with
  | nil => rfl
  | cons c rest ih => rw [textFrom_cons, ih, Math.marked_cons, partsFrom, List.flatten_cons]

theorem text_eq_flatten (state : Bool) (s : List Char) :
    text state s = (parts state s).flatten :=
  textFrom_eq_flatten state false s

/-- Two texts may be escaped one after the other if it is known whether a quote is open between
them. -/
theorem text_append {state : Bool} {first second : List Char} (h : Math.Apart first second) :
    text state (first ++ second) =
      text state first ++
        textFrom (Math.after state first) (quotedBehind false (Math.marked state first)) second := by
  rw [text_eq_flatten, parts, Math.marked_append h, partsFrom_append, List.flatten_append,
    textFrom_eq_flatten, text_eq_flatten, parts]

/-! ## Texts in fragments -/

/-- **A text in two fragments.** Unless a switch stands across their border, two texts have the same
states one after the other as they have as one text. If moreover the quotes outside math in the
first text are closed, escaping them one after the other is escaping them as one text. -/
theorem text_in_fragments (state : Bool) {first second : List Char}
    (hborder : Math.Apart first second) :
    Math.trace state (first ++ second) =
        Math.trace state first ++ Math.trace (Math.after state first) second ∧
      (Even ((Math.marked state first).count ('"', false)) →
        text state (first ++ second) =
            text state first ++ text (Math.after state first) second ∧
          Math.after state (first ++ second) =
            Math.after (Math.after state first) second) := by
  refine ⟨Math.trace_append hborder, fun heven => ⟨?_, Math.after_append hborder⟩⟩
  rw [text_append hborder, quotedBehind_of_even heven]
  rfl

/-- The first fragment ends in math, with a quote in it and a backslash at its end. -/
theorem text_in_fragments_math :
    let first := "\"a\" $b\" \\".toList
    let second := "_c$ \"d\"".toList
    Math.Apart first second ∧ Even ((Math.marked false first).count ('"', false)) ∧
      Math.after false first = true ∧
      Math.trace false (first ++ second) = Math.trace false first ++ Math.trace true second ∧
      text false (first ++ second) = text false first ++ text true second ∧
      Math.after false (first ++ second) = Math.after true second := by
  intro first second
  have hborder : Math.Apart first second := by decide
  have heven : Even ((Math.marked false first).count ('"', false)) := by decide
  have hafter : Math.after false first = true := by decide
  obtain ⟨htrace, htext⟩ := text_in_fragments false hborder
  rw [hafter] at htrace htext
  exact ⟨hborder, heven, hafter, htrace, htext heven⟩

end Escape

end OutlineTex
