/-
What a code spells.

A code is read letter by letter, blanks apart. A letter of a family stands for the style of its
level, and the level is the number of times that the letter has come by then; any other letter is an
id by itself. What is looked up is therefore settled by the letters alone, and the table knows four
plain ids and five levels of each family. So a code spells styles if its letters are those of the
table and none of a family comes a sixth time, and otherwise it fails at the first letter that
breaks this, under the id that this letter stands for.

The ids of a code grow by one with each letter, and the new id depends on the letters before it. The
inductions are therefore on the letters from the right.
-/
import Mathlib.Data.List.Induction
import OutlineTex.Proofs.Style.Stack

set_option autoImplicit false

namespace OutlineTex.Style

open OutlineTex.Text

/-! ## Letters -/

/-- The letters of a code: all of it but the blanks. -/
def letters (code : String) : List Char :=
  code.toList.filter (!isBlank ·)

/-- The letters that are ids by themselves. -/
def plainLetters : List Char := ['N', 'P', 'I', 'E']

/-- The letters of families. -/
def families : List Char := ['S', 's', 'T']

/-- Letters that spell styles: each is plain or of a family, and none of a family comes more than
five times. -/
def Spells (letters : List Char) : Prop :=
  (∀ letter ∈ letters, letter ∈ plainLetters ∨ letter ∈ families) ∧
    ∀ letter ∈ families, letters.count letter ≤ 5

instance (letters : List Char) : Decidable (Spells letters) :=
  decidable_of_iff
    ((letters.all fun letter => plainLetters.contains letter || families.contains letter) &&
      families.all (letters.count · ≤ 5)) (by simp [Spells])

/-- A letter that cannot follow the letters before it: it is neither plain nor of a family, or it is
of a family and has come five times. -/
def Offends (before : List Char) (letter : Char) : Prop :=
  letter ∉ plainLetters ∧ letter ∉ families ∨ letter ∈ families ∧ 5 ≤ before.count letter

/-- The id of a level of a family. -/
def numbered (letter : Char) (level : Nat) : String :=
  s!"{letter}{level}"

/-- The id that a letter stands for behind others. -/
def idBehind (before : List Char) (letter : Char) : String :=
  if letter ∈ families then numbered letter (before.count letter + 1) else String.singleton letter

theorem isFamily_iff {letter : Char} : isFamily letter = true ↔ letter ∈ families := by
  simp [isFamily, families, or_assoc]

/-- Letters spell styles with one more letter behind them if and only if they do without it, and it
can follow them. -/
theorem spells_concat (before : List Char) (letter : Char) :
    Spells (before ++ [letter]) ↔ Spells before ∧ ¬ Offends before letter := by
  have hcount : ∀ other, (before ++ [letter]).count other =
      before.count other + if letter = other then 1 else 0 := by
    intro other
    rw [List.count_append, List.count_singleton]
    simp only [beq_iff_eq]
  simp only [Spells, Offends, hcount, List.mem_append, List.mem_singleton]
  constructor
  · rintro ⟨hknown, hfew⟩
    refine ⟨⟨fun other hother => hknown other (.inl hother), fun other hother => ?_⟩, ?_⟩
    · exact Nat.le_trans (Nat.le_add_right _ _) (hfew other hother)
    · rintro (⟨hplain, hfamily⟩ | ⟨hfamily, hmany⟩)
      · exact (hknown letter (.inr rfl)).elim hplain hfamily
      · have hlast := hfew letter hfamily
        rw [if_pos rfl] at hlast
        omega
  · rintro ⟨⟨hknown, hfew⟩, hfollows⟩
    refine ⟨?_, fun other hother => ?_⟩
    · rintro other (hother | rfl)
      · exact hknown other hother
      · by_contra hunknown
        exact hfollows (.inl (not_or.mp hunknown))
    · have hbefore := hfew other hother
      split
      · next heq =>
        subst heq
        have : ¬ 5 ≤ before.count letter := fun hmany => hfollows (.inr ⟨hother, hmany⟩)
        omega
      · omega

/-! ## Ids -/

theorem toList_numbered (letter : Char) (level : Nat) :
    (numbered letter level).toList = letter :: Nat.toDigits 10 level := by
  show (String.singleton letter ++ Nat.repr level).toList = _
  simp [Nat.repr]

/-- A level of a family is told by its id, -/
theorem numbered_inj {letter other : Char} {level upper : Nat} :
    numbered letter level = numbered other upper ↔ letter = other ∧ level = upper := by
  refine ⟨fun h => ?_, fun ⟨hletter, hlevel⟩ => by rw [hletter, hlevel]⟩
  have hlist := congrArg String.toList h
  rw [toList_numbered, toList_numbered] at hlist
  obtain ⟨hletter, hdigits⟩ := List.cons.inj hlist
  have hvalue := congrArg (Nat.ofDigitChars 10 · 0) hdigits
  simp only [Nat.ofDigitChars_ten_toDigits] at hvalue
  exact ⟨hletter, hvalue⟩

/-- and not by one letter. -/
theorem numbered_ne_singleton (letter other : Char) (level : Nat) :
    numbered letter level ≠ String.singleton other := by
  intro h
  have hlist := congrArg String.toList h
  rw [toList_numbered, String.toList_singleton] at hlist
  exact Nat.toDigits_ne_nil (List.cons.inj hlist).2

/-- The ids of the table are the plain letters and five levels of each family. -/
theorem isSome_find?_iff {id : String} : (find? id).isSome = true ↔
    (∃ letter ∈ plainLetters, String.singleton letter = id) ∨
      ∃ letter ∈ families, ∃ level, 1 ≤ level ∧ level ≤ 5 ∧ numbered letter level = id := by
  have hids : table.map (·.id) = plainLetters.map String.singleton ++
      families.flatMap fun letter => (List.range' 1 5).map (numbered letter) := rfl
  have hmem : (find? id).isSome = true ↔ id ∈ table.map (·.id) := by
    rw [find?, List.find?_isSome, List.mem_map]
    simp only [beq_iff_eq]
  have hlevel : ∀ level, level ∈ List.range' 1 5 ↔ 1 ≤ level ∧ level ≤ 5 := by
    intro level
    rw [List.mem_range'_1]
    omega
  rw [hmem, hids, List.mem_append, List.mem_map, List.mem_flatMap]
  simp only [List.mem_map, hlevel, and_assoc]

/-- A family has five levels. -/
theorem isSome_find?_numbered {letter : Char} (hfamily : letter ∈ families) (level : Nat) :
    (find? (numbered letter level)).isSome = true ↔ 1 ≤ level ∧ level ≤ 5 := by
  rw [isSome_find?_iff]
  constructor
  · rintro (⟨other, -, hsame⟩ | ⟨other, -, upper, hfirst, hlast, hsame⟩)
    · exact absurd hsame.symm (numbered_ne_singleton letter other level)
    · obtain ⟨-, rfl⟩ := numbered_inj.mp hsame
      exact ⟨hfirst, hlast⟩
  · rintro ⟨hfirst, hlast⟩
    exact .inr ⟨letter, hfamily, level, hfirst, hlast, rfl⟩

/-- A letter by itself is an id only if it is plain. -/
theorem isSome_find?_singleton (letter : Char) :
    (find? (String.singleton letter)).isSome = true ↔ letter ∈ plainLetters := by
  rw [isSome_find?_iff]
  constructor
  · rintro (⟨other, hplain, hsame⟩ | ⟨other, -, level, -, -, hsame⟩)
    · have hlist := congrArg String.toList hsame
      rw [String.toList_singleton, String.toList_singleton] at hlist
      rwa [← (List.cons.inj hlist).1]
    · exact absurd hsame (numbered_ne_singleton other letter level)
  · exact fun hplain => .inl ⟨letter, hplain, rfl⟩

/-- The id of a letter is in the table if and only if the letter can follow those before it. -/
theorem isSome_find?_idBehind (before : List Char) (letter : Char) :
    (find? (idBehind before letter)).isSome = true ↔ ¬ Offends before letter := by
  rw [idBehind, Offends]
  split
  · next hfamily =>
    rw [isSome_find?_numbered hfamily]
    simp only [hfamily, not_true_eq_false, and_false, false_or, true_and]
    omega
  · next hfamily =>
    rw [isSome_find?_singleton]
    simp only [hfamily, not_false_eq_true, and_true, false_and, or_false, Decidable.not_not]

/-! ## The ids of a code -/

/-- Blanks spell nothing. -/
theorem idsFrom_filter (before code : List Char) :
    idsFrom before (code.filter (!isBlank ·)) = idsFrom before code := by
  induction code generalizing before with
  | nil => rfl
  | cons letter rest ih =>
    rw [idsFrom]
    by_cases hblank : isBlank letter = true
    · rw [if_pos hblank, List.filter_cons_of_neg (by simp [hblank]), ih]
    · rw [if_neg hblank, List.filter_cons_of_pos (by simp [hblank]), idsFrom, if_neg hblank, ih]

/-- Letters spell their ids one after the other. Those that have been read are kept last first, but
all that is asked of them is how many there are of a kind. -/
theorem idsFrom_append {first : List Char} (hfirst : ∀ letter ∈ first, isBlank letter = false)
    (before rest : List Char) :
    idsFrom before (first ++ rest) =
      idsFrom before first ++ idsFrom (first.reverse ++ before) rest := by
  induction first generalizing before with
  | nil => rfl
  | cons letter first ih =>
    have hblank : ¬ isBlank letter = true := by simp [hfirst letter List.mem_cons_self]
    rw [List.cons_append, idsFrom, idsFrom, if_neg hblank, if_neg hblank,
      ih (fun other hother => hfirst other (List.mem_cons_of_mem letter hother)), List.cons_append,
      List.reverse_cons, List.append_assoc, List.singleton_append]

/-- One letter more spells one id more. -/
theorem idsFrom_cons {before : List Char} {letter : Char} {rest : List Char}
    (hbefore : ∀ other ∈ before, isBlank other = false) (hletter : isBlank letter = false) :
    idsFrom [] (before ++ letter :: rest) = idsFrom [] before ++
      idBehind before letter :: idsFrom (letter :: before.reverse) rest := by
  have hid : (if isFamily letter then s!"{letter}{before.reverse.count letter + 1}"
      else String.singleton letter) = idBehind before letter := by
    simp only [idBehind, isFamily_iff, List.count_reverse]
    rfl
  rw [idsFrom_append hbefore, List.append_nil, idsFrom, if_neg (by simp [hletter])]
  exact congrArg (fun id => _ ++ id :: _) hid

theorem ids_eq (code : String) : ids code = idsFrom [] (letters code) :=
  (idsFrom_filter [] code.toList).symm

theorem isBlank_of_mem_letters {code : String} :
    ∀ letter ∈ letters code, isBlank letter = false := by
  intro letter hletter
  simpa using (List.mem_filter.mp hletter).2

/-! ## Faults -/

/-- Letters spell styles if and only if every id of theirs is in the table. The induction is on the
letters from the right. -/
theorem spells_iff {letters : List Char} (hletters : ∀ letter ∈ letters, isBlank letter = false) :
    Spells letters ↔ ∀ id ∈ idsFrom [] letters, (find? id).isSome = true := by
  induction letters using List.reverseRecOn with
  | nil => simp [Spells, idsFrom]
  | append_singleton before letter ih =>
    have hbefore : ∀ other ∈ before, isBlank other = false :=
      fun other hother => hletters other (List.mem_append_left _ hother)
    have hletter : isBlank letter = false :=
      hletters letter (List.mem_append_right _ (List.mem_singleton_self letter))
    rw [spells_concat, idsFrom_cons hbefore hletter, idsFrom, List.forall_mem_append,
      List.forall_mem_singleton, ih hbefore, isSome_find?_idBehind]

/-- Letters that spell no styles have a first one that offends. -/
theorem exists_offends {letters : List Char} (h : ¬ Spells letters) :
    ∃ before letter after, letters = before ++ letter :: after ∧ Spells before ∧
      Offends before letter := by
  induction letters using List.reverseRecOn with
  | nil => exact absurd (by simp [Spells]) h
  | append_singleton before letter ih =>
    by_cases hbefore : Spells before
    · refine ⟨before, letter, [], rfl, hbefore, ?_⟩
      by_contra hfollows
      exact h ((spells_concat before letter).mpr ⟨hbefore, hfollows⟩)
    · obtain ⟨earlier, first, between, rfl, hfirst⟩ := ih hbefore
      exact ⟨earlier, first, between ++ [letter], by simp, hfirst⟩

/-! ## Digits -/

/-- The id of a letter is the letter once its digits are dropped. -/
theorem filter_idBehind {before : List Char} {letter : Char} (h : ¬ Offends before letter) :
    (idBehind before letter).toList.filter (!·.isDigit) = [letter] := by
  have hdigits : (plainLetters ++ families).all (!·.isDigit) = true := by decide
  have hknown : letter ∈ plainLetters ++ families := by
    by_contra hunknown
    exact h (.inl (not_or.mp (mt List.mem_append.mpr hunknown)))
  have hletter : (!letter.isDigit) = true := List.all_eq_true.mp hdigits letter hknown
  rw [idBehind]
  split
  · have hlevel : (Nat.toDigits 10 (before.count letter + 1)).filter (!·.isDigit) = [] := by
      rw [List.filter_eq_nil_iff]
      intro digit hdigit
      simp [Nat.isDigit_of_mem_toDigits (by decide) (by decide) hdigit]
    rw [toList_numbered, List.filter_cons, if_pos hletter, hlevel]
  · rw [String.toList_singleton, List.filter_cons, if_pos hletter, List.filter_nil]

theorem filter_idsFrom {letters : List Char} (hletters : ∀ letter ∈ letters, isBlank letter = false)
    (hspells : Spells letters) :
    ((idsFrom [] letters).flatMap String.toList).filter (!·.isDigit) = letters := by
  induction letters using List.reverseRecOn with
  | nil => rfl
  | append_singleton before letter ih =>
    obtain ⟨hbefore, hfollows⟩ := (spells_concat before letter).mp hspells
    have hearlier : ∀ other ∈ before, isBlank other = false :=
      fun other hother => hletters other (List.mem_append_left _ hother)
    have hletter : isBlank letter = false :=
      hletters letter (List.mem_append_right _ (List.mem_singleton_self letter))
    rw [idsFrom_cons hearlier hletter, idsFrom, List.flatMap_append, List.flatMap_singleton,
      List.filter_append, ih hearlier hbefore, filter_idBehind hfollows]

end OutlineTex.Style

namespace OutlineTex.StyleStack

open OutlineTex.Text

/-! ## Codes -/

/-- The styles that ids are looked up as have these ids. -/
theorem map_id_of_ofIds {ids : List String} {styles : List Style} (h : ofIds ids = .ok styles) :
    styles.map (·.id) = ids := by
  induction ids generalizing styles with
  | nil =>
    obtain rfl : [] = styles := Except.ok.inj h
    rfl
  | cons id rest ih =>
    rw [ofIds] at h
    cases hstyle : Style.find? id with
    | none => simp [hstyle] at h
    | some style =>
      cases hrest : ofIds rest with
      | error failure => simp [hstyle, hrest, Except.map] at h
      | ok below =>
        simp only [hstyle, hrest, Except.map, Except.ok.injEq] at h
        have hid : style.id = id := by simpa using List.find?_some hstyle
        rw [← h, List.map_cons, hid, ih hrest]

theorem map_id_of_ofCode {code : String} {stack : StyleStack} (h : ofCode code = .ok stack) :
    stack.styles.map (·.id) = Style.ids code := by
  rw [ofCode] at h
  cases hids : ofIds (Style.ids code) with
  | error failure => simp [hids, Except.map] at h
  | ok styles =>
    simp only [hids, Except.map, Except.ok.injEq] at h
    rw [← h, map_id_of_ofIds hids]

/-- A code spells a stack if and only if its letters spell styles. -/
theorem exists_ofCode_iff {code : String} :
    (∃ stack, ofCode code = .ok stack) ↔ Style.Spells (Style.letters code) := by
  have hfault : fault? code = none ↔ Style.Spells (Style.letters code) := by
    rw [fault?, Option.map_eq_none_iff, List.find?_eq_none,
      Style.spells_iff Style.isBlank_of_mem_letters, Style.ids_eq]
    simp only [Bool.not_eq_true, Option.isNone_eq_false_iff]
  rw [← hfault]
  refine ⟨fun ⟨stack, hstack⟩ => ?_, exists_ofCode⟩
  rw [Option.eq_none_iff_forall_ne_some]
  exact fun failure h => absurd (hstack.symm.trans (ofCode_of_fault? h)) (by simp)

/-- The style of a letter stands at the place of the letter. -/
theorem id_of_ofCode {code : String} {stack : StyleStack} (h : ofCode code = .ok stack)
    {before after : List Char} {letter : Char}
    (hletters : Style.letters code = before ++ letter :: after) :
    stack.styles[before.length]?.map (·.id) = some (Style.idBehind before letter) := by
  have hblank := @Style.isBlank_of_mem_letters code
  rw [hletters, List.forall_mem_append, List.forall_mem_cons] at hblank
  obtain ⟨hbefore, hletter, -⟩ := hblank
  have hlength : (Style.idsFrom [] before).length = before.length := by
    rw [Style.length_idsFrom, List.filter_eq_self.mpr]
    exact fun other hother => by rw [hbefore other hother]; rfl
  rw [← List.getElem?_map, map_id_of_ofCode h, Style.ids_eq, hletters,
    Style.idsFrom_cons hbefore hletter, List.getElem?_append_right (Nat.le_of_eq hlength), hlength,
    Nat.sub_self]
  rfl

/-- Where letters spell styles and the one behind them offends, the code fails with its id. -/
theorem ofCode_of_offends {code : String} {before after : List Char} {letter : Char}
    (hletters : Style.letters code = before ++ letter :: after) (hspells : Style.Spells before)
    (hoffends : Style.Offends before letter) :
    ofCode code = .error (.unknownStyle (Style.idBehind before letter)) := by
  have hblank := @Style.isBlank_of_mem_letters code
  rw [hletters, List.forall_mem_append, List.forall_mem_cons] at hblank
  obtain ⟨hbefore, hletter, -⟩ := hblank
  have hnone : (Style.idsFrom [] before).find? (fun id => (Style.find? id).isNone) = none := by
    rw [List.find?_eq_none]
    intro id hid
    rw [Option.isNone_eq_false_iff.mpr ((Style.spells_iff hbefore).mp hspells id hid)]
    exact Bool.false_ne_true
  have hfails : (Style.find? (Style.idBehind before letter)).isNone = true := by
    have hnot := mt (Style.isSome_find?_idBehind before letter).mp (not_not.mpr hoffends)
    simpa using hnot
  refine ofCode_of_fault? ?_
  rw [fault?, Style.ids_eq, hletters, Style.idsFrom_cons hbefore hletter, List.find?_append, hnone,
    Option.none_or, List.find?_cons, hfails, Option.map_some]

/-- A code fails with the id of its first letter that offends. -/
theorem ofCode_eq_error_iff_offends {code : String} {failure : Failure} :
    ofCode code = .error failure ↔
      ∃ before letter after, Style.letters code = before ++ letter :: after ∧
        Style.Spells before ∧ Style.Offends before letter ∧
          failure = .unknownStyle (Style.idBehind before letter) := by
  constructor
  · intro hfails
    have hspells : ¬ Style.Spells (Style.letters code) := by
      rw [← exists_ofCode_iff]
      rintro ⟨stack, hstack⟩
      exact absurd (hstack.symm.trans hfails) (by simp)
    obtain ⟨before, letter, after, hletters, hbefore, hoffends⟩ := Style.exists_offends hspells
    have hcode := ofCode_of_offends hletters hbefore hoffends
    exact ⟨before, letter, after, hletters, hbefore, hoffends,
      Except.error.inj (hfails.symm.trans hcode)⟩
  · rintro ⟨before, letter, after, hletters, hbefore, hoffends, rfl⟩
    exact ofCode_of_offends hletters hbefore hoffends

/-- **What a code spells.** Take the letters of a code, which are all of it but the blanks. The code
spells a stack if and only if its letters spell styles: each is plain or of a family, and none of a
family comes more than five times. The stack then has one style for each letter. The id of a plain
letter is the letter, and that of a letter of a family is the letter and the number of times it has
come, so the letters are what is left of the ids when the digits are dropped. And the code fails if
and only if there is a first letter that offends, and with its id: the letter itself if it is
neither plain nor of a family, and the sixth level of its family if it has come five times before.
-/
theorem ofCode_of_letters (code : String) :
    let letters := Style.letters code
    ((∃ stack, ofCode code = .ok stack) ↔ Style.Spells letters) ∧
      (∀ stack, ofCode code = .ok stack →
        stack.styles.length = letters.length ∧
          (∀ before letter after, letters = before ++ letter :: after →
            stack.styles[before.length]?.map (·.id) = some (
              if letter ∈ Style.families then s!"{letter}{before.count letter + 1}"
              else String.singleton letter)) ∧
          stack.code.toList.filter (!·.isDigit) = letters) ∧
      ∀ failure, ofCode code = .error failure ↔
        ∃ before letter after, letters = before ++ letter :: after ∧ Style.Spells before ∧
          (letter ∉ Style.plainLetters ∧ letter ∉ Style.families ∧
              failure = .unknownStyle (String.singleton letter) ∨
            letter ∈ Style.families ∧ before.count letter = 5 ∧
              failure = .unknownStyle s!"{letter}6") := by
  intro letters
  refine ⟨exists_ofCode_iff, fun stack hstack => ⟨length_of_ofCode hstack, ?_, ?_⟩,
    fun failure => ?_⟩
  · exact fun before letter after hletters => id_of_ofCode hstack hletters
  · have hspells : Style.Spells letters := exists_ofCode_iff.mp ⟨stack, hstack⟩
    rw [StyleStack.code, map_id_of_ofCode hstack, String.toList_join, Style.ids_eq]
    exact Style.filter_idsFrom Style.isBlank_of_mem_letters hspells
  · rw [ofCode_eq_error_iff_offends]
    refine exists_congr fun before => exists_congr fun letter => exists_congr fun after =>
      and_congr_right fun _ => and_congr_right fun hspells => ?_
    by_cases hfamily : letter ∈ Style.families
    · -- the letters before spell styles, so none of a family has come more than five times
      have hfew := hspells.2 letter hfamily
      have hfive : 5 ≤ before.count letter ↔ before.count letter = 5 := by omega
      simp only [Style.Offends, Style.idBehind, hfamily, if_true, not_true_eq_false, and_false,
        false_and, false_or, true_and, hfive]
      refine and_congr_right fun hcount => ?_
      rw [hcount]
      rfl
    · simp only [Style.Offends, Style.idBehind, hfamily, if_false, not_false_eq_true, true_and,
        false_and, or_false, and_assoc]

/-- A code with blanks, in which the letters of two families are mixed, and one with six letters of
a family before a letter that is nowhere in the table. -/
theorem ofCode_of_letters_mixed :
    (∃ stack, ofCode "S sS\tN" = .ok stack ∧ stack.styles.map (·.id) = ["S1", "s1", "S2", "N"] ∧
      stack.styles.length = (Style.letters "S sS\tN").length ∧
      stack.styles[2]?.map (·.id) = some "S2" ∧
      stack.code.toList.filter (!·.isDigit) = ['S', 's', 'S', 'N']) ∧
    ¬ Style.Spells (Style.letters "SSSsS SSx") ∧
      ofCode "SSSsS SSx" = .error (.unknownStyle "S6") := by
  have hletters : Style.letters "S sS\tN" = ['S', 's'] ++ 'S' :: ['N'] := by decide
  have hfirst : Style.Spells ['S', 'S', 'S', 's', 'S', 'S'] := by decide
  obtain ⟨hspells, hstyles, -⟩ := ofCode_of_letters "S sS\tN"
  obtain ⟨hspells', -, hfails⟩ := ofCode_of_letters "SSSsS SSx"
  obtain ⟨stack, hstack⟩ := hspells.mpr (by decide)
  obtain ⟨hlength, hplaces, hcode⟩ := hstyles stack hstack
  have herror : ofCode "SSSsS SSx" = .error (.unknownStyle "S6") :=
    (hfails _).mpr ⟨['S', 'S', 'S', 's', 'S', 'S'], 'S', ['x'], by decide, hfirst,
      .inr ⟨by decide, by decide, rfl⟩⟩
  refine ⟨⟨stack, hstack, ?_, hlength, hplaces _ _ _ hletters, hcode⟩, ?_, herror⟩
  · rw [map_id_of_ofCode hstack]
    rfl
  · rw [← hspells']
    rintro ⟨other, hother⟩
    exact absurd (hother.symm.trans herror) (by simp)

end OutlineTex.StyleStack
