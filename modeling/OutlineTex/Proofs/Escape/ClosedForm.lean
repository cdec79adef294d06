/-
The math state at a place of a text, and the turn of a quote.

Both are carried along when a text is escaped from the left to the right. Both can also be read off
the text at once. The state at a place is what the last switch up to there says, or the state before
the text if there is none, toggled by every dollar from then on. A quote outside math opens if it is
the first of its kind, the third, the fifth and so on.

The induction for the state takes the first character off the text. Everything moves one place to
the front by that, and what the character did goes into the state before the rest: whether it is the
start of a switch behind which no other comes, or a dollar that is counted, or nothing.
-/
import OutlineTex.Proofs.Escape.Fragments

set_option autoImplicit false

namespace OutlineTex

namespace Math

/-! ## The closed form -/

/-- The switch that starts at a place of a text, if there is one: whether it is into math. -/
def switchAt? (s : List Char) (place : Nat) : Option Bool :=
  if s[place]? = some '\\' then
    if s[place + 1]? = some '[' then some true
    else if s[place + 1]? = some ']' then some false
    else none
  else none

/-- The last switch of a text that starts at a place or before it, and where it starts. -/
def lastSwitch? (s : List Char) (place : Nat) : Option (Nat × Bool) :=
  ((List.range (place + 1)).filterMap fun start =>
    (switchAt? s start).map fun on => (start, on)).getLast?

/-- The number of dollars of a text from one place to another. -/
def dollars (s : List Char) (start stop : Nat) : Nat :=
  ((s.take (stop + 1)).drop start).count '$'

/-- The state at a place of a text, read off the text. -/
def stateAt (state : Bool) (s : List Char) (place : Nat) : Bool :=
  match lastSwitch? s place with
  | some (start, on) => on ^^ decide (Odd (dollars s (start + 1) place))
  | none => state ^^ decide (Odd (dollars s 0 place))

/-! ## One character less -/

/-- What a character does to the state: a switch sets it, and a dollar toggles it. -/
theorem step_eq (state : Bool) (c : Char) (rest : List Char) :
    step state c rest = (switchAt? (c :: rest) 0).getD (state ^^ decide (c = '$')) := by
  rw [step, switchAt?, List.head?_eq_getElem?]
  by_cases hc : c = '\\'
  · subst hc
    by_cases hopen : rest[0]? = some '['
    · simp [hopen]
    · by_cases hclose : rest[0]? = some ']' <;> simp [hopen, hclose]
  · by_cases hdollar : c = '$' <;> simp [hc, hdollar]

theorem switchAt?_cons (c : Char) (rest : List Char) (place : Nat) :
    switchAt? (c :: rest) (place + 1) = switchAt? rest place := rfl

theorem lastSwitch?_zero (s : List Char) :
    lastSwitch? s 0 = (switchAt? s 0).map fun on => (0, on) := by
  rw [lastSwitch?]
  cases h : switchAt? s 0 <;> simp [h]

/-- The last switch of a text is that of the text without its first character, or else the one that
starts at this character. -/
theorem lastSwitch?_cons (c : Char) (rest : List Char) (place : Nat) :
    lastSwitch? (c :: rest) (place + 1) =
      ((lastSwitch? rest place).map fun last => (last.1 + 1, last.2)).or
        (lastSwitch? (c :: rest) 0) := by
  -- a place behind the first one is one place nearer to the front of the rest
  have hbehind : ((List.range (place + 1)).map Nat.succ).filterMap
        (fun start => (switchAt? (c :: rest) start).map fun on => (start, on)) =
      ((List.range (place + 1)).filterMap fun start =>
        (switchAt? rest start).map fun on => (start, on)).map
          fun last => (last.1 + 1, last.2) := by
    simp only [List.filterMap_map, List.map_filterMap, Function.comp_def, switchAt?_cons,
      Option.map_map, Nat.succ_eq_add_one]
  have hrange : List.range (place + 1 + 1) = [0] ++ (List.range (place + 1)).map Nat.succ :=
    List.range_succ_eq_map
  rw [lastSwitch?, hrange, List.filterMap_append, List.getLast?_append, hbehind,
    List.getLast?_map]
  rfl

theorem dollars_cons_zero (c : Char) (rest : List Char) (stop : Nat) :
    dollars (c :: rest) 0 (stop + 1) = dollars rest 0 stop + if c = '$' then 1 else 0 := by
  rw [dollars, List.take_succ_cons, List.drop_zero, List.count_cons, dollars, List.drop_zero]
  simp

theorem stateAt_zero (state : Bool) (c : Char) (rest : List Char) :
    stateAt state (c :: rest) 0 = step state c rest := by
  rw [stateAt, lastSwitch?_zero, step_eq]
  cases switchAt? (c :: rest) 0 with
  | some on => simp [dollars]
  | none =>
    by_cases hdollar : c = '$' <;> simp [dollars, hdollar]

theorem stateAt_succ (state : Bool) (c : Char) (rest : List Char) (place : Nat) :
    stateAt state (c :: rest) (place + 1) = stateAt (step state c rest) rest place := by
  rw [stateAt, stateAt, lastSwitch?_cons, lastSwitch?_zero]
  cases lastSwitch? rest place with
  | some last =>
    -- its dollars are all in the rest
    rfl
  | none =>
    -- the first character itself is the last that can have set the state
    rw [step_eq]
    cases switchAt? (c :: rest) 0 with
    | some on => rfl
    | none =>
      simp only [Option.map_none, Option.or_none, Option.getD_none]
      rw [dollars_cons_zero, decide_odd_add, Bool.xor_comm (decide (Odd (dollars rest 0 place))),
        ← Bool.xor_assoc]
      by_cases hdollar : c = '$' <;> simp [hdollar]

/-- The states of a text, read off at each of its places. -/
theorem trace_eq_map_stateAt (state : Bool) (s : List Char) :
    trace state s = (List.range s.length).map (stateAt state s) := by
  induction s generalizing state with
  | nil => rfl
  | cons c rest ih =>
    rw [trace, ih, List.length_cons, List.range_succ_eq_map, List.map_cons, List.map_map,
      stateAt_zero]
    refine congrArg (_ :: ·) (List.map_congr_left fun place _ => ?_)
    rw [Function.comp_apply, stateAt_succ]

theorem getElem?_marked (state : Bool) (s : List Char) (place : Nat) :
    (marked state s)[place]? = s[place]?.map fun c => (c, stateAt state s place) := by
  by_cases hplace : place < s.length <;> simp [marked, trace_eq_map_stateAt, List.zip, hplace]

/-- Without switches, only the number of dollars matters for the state behind a text. -/
theorem after_of_switchless {s : List Char} (state : Bool) (h : ∀ place, switchAt? s place = none) :
    after state s = (state ^^ decide (Odd (s.count '$'))) := by
  cases s with
  | nil => simp [after]
  | cons c rest =>
    have hlast : lastSwitch? (c :: rest) rest.length = none := by simp [lastSwitch?, h]
    -- the state behind a text is the one at its last place, up to which all dollars count
    rw [after_eq_getLast, trace_eq_map_stateAt, List.getLast?_map, List.length_cons,
      List.getLast?_range]
    simp [stateAt, hlast, dollars]

end Math

/-! ## The turn of a quote -/

namespace Escape

/-- The number of quotes outside math at a place of a text and before it. -/
def quotesUpTo (state : Bool) (s : List Char) (place : Nat) : Nat :=
  (List.range (place + 1)).countP fun p => s[p]? == some '"' && !Math.stateAt state s p

/-- Entries of a list are counted place by place. -/
theorem count_take {α : Type} [BEq α] [LawfulBEq α] (l : List α) (a : α) (n : Nat) :
    (l.take n).count a = (List.range n).countP fun p => l[p]? == some a := by
  induction n with
  | zero => rfl
  | succ n ih =>
    rw [List.take_add_one, List.count_append, ih, List.range_succ, List.countP_append,
      List.countP_singleton]
    cases h : l[n]? with
    | none => simp
    | some b => by_cases hb : b = a <;> simp [hb]

theorem quotesUpTo_eq_count (state : Bool) (s : List Char) (place : Nat) :
    quotesUpTo state s place =
      ((Math.marked state s).take (place + 1)).count ('"', false) := by
  rw [count_take, quotesUpTo]
  refine List.countP_congr fun p _ => ?_
  rw [Math.getElem?_marked]
  cases s[p]? <;> simp

section Quote

variable {state : Bool} {front : List Char} (rest : List Char)

theorem quotesUpTo_length (h : Math.after state front = false) :
    quotesUpTo state (front ++ '"' :: rest) front.length =
      (Math.marked state front).count ('"', false) + 1 := by
  rw [quotesUpTo_eq_count, Math.marked_append (Math.apart_of_isInert rfl front rest), h,
    Math.marked_cons, ← Math.length_marked state front, List.take_length_add_append,
    List.count_append]
  rfl

/-- A quote that stands outside math opens if it is the first one, the third one and so on. -/
theorem text_quote (h : Math.after state front = false) :
    text state front ++
        (if Odd (quotesUpTo state (front ++ '"' :: rest) front.length) then openingQuote
          else closingQuote) <+:
      text state (front ++ '"' :: rest) := by
  rw [text_append (Math.apart_of_isInert rfl front rest), h, textFrom_cons,
    Math.step_of_isInert rfl, ← List.append_assoc, quotesUpTo_length rest h, quotedBehind, part,
    if_pos (beq_self_eq_true _)]
  by_cases hodd : Odd ((Math.marked state front).count ('"', false)) <;>
    simp [Nat.odd_add_one, hodd]

end Quote

/-- **The closed form of scanning and of the quotes.** The state at a place of a text is that of the
last switch which starts there or before, toggled by the dollars from then on, or the state before
the text if there is no such switch, toggled by all the dollars up to the place. So a text without
switches and with an even number of dollars leaves the state as it is. What is written for the
quotes outside math in a text, behind what is written for all that comes before, opens and closes in
turn, whatever quotes there are in math. -/
theorem scan_closed_form (state : Bool) (s : List Char) :
    Math.trace state s = (List.range s.length).map (Math.stateAt state s) ∧
      ((∀ place, Math.switchAt? s place = none) → Even (s.count '$') →
        Math.after state s = state) ∧
      ∀ place, s[place]? = some '"' → Math.stateAt state s place = false →
        text state (s.take place) ++
            (if Odd (quotesUpTo state s place) then openingQuote else closingQuote) <+:
          text state s := by
  refine ⟨Math.trace_eq_map_stateAt state s, fun hswitchless heven => ?_, ?_⟩
  · rw [Math.after_of_switchless state hswitchless,
      decide_eq_false (Nat.not_odd_iff_even.mpr heven), Bool.xor_false]
  · intro place hquote hstate
    have hmark : (Math.marked state s)[place]? = some ('"', false) := by
      rw [Math.getElem?_marked, hquote, ← hstate]
      rfl
    obtain ⟨front, rest, rfl, rfl, hafter⟩ := (Math.getElem?_marked_iff rfl).mp hmark
    rw [List.take_left]
    exact text_quote rest hafter

/-- Between two quotes there are two in math, which do not count. -/
theorem scan_closed_form_math :
    let s := "\"a $\"b\"$ c\"".toList
    ((∀ place, Math.switchAt? s place = none) ∧ Even (s.count '$') ∧
        Math.after false s = false) ∧
      s[10]? = some '"' ∧ Math.stateAt false s 10 = false ∧ quotesUpTo false s 10 = 2 ∧
      text false (s.take 10) ++ closingQuote <+: text false s := by
  intro s
  have hbackslash : '\\' ∉ s := by decide
  have hswitchless : ∀ place, Math.switchAt? s place = none := fun place =>
    if_neg fun h => hbackslash (List.mem_of_getElem? h)
  have heven : Even (s.count '$') := by decide
  have hquote : s[10]? = some '"' := by decide
  have hstate : Math.stateAt false s 10 = false := by decide
  have hcount : quotesUpTo false s 10 = 2 := by decide
  obtain ⟨-, hafter, hglyph⟩ := scan_closed_form false s
  have hclosing := hglyph 10 hquote hstate
  rw [hcount, if_neg (by decide)] at hclosing
  exact ⟨⟨hswitchless, heven, hafter hswitchless heven⟩, hquote, hstate, hcount, hclosing⟩

end Escape

end OutlineTex
