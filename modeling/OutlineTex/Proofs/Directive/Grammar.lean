/-
The grammar of directives.

A value is cut in two at its first blank: the first word, and the argument, from which the blanks in
front are dropped. The first word alone says which directive the value is, since the forms compare
names without regard to case and let nothing but a blank stand behind them. There is one exception:
the name of the document class may be followed by any character of no word. What the directive asks
for is then said by the argument, as a text or as its words.

So the grammar can be written down without the forms, and this file shows that the forms accept
exactly what it allows. One lemma does most of the work: a name at the head of a value, with a blank
or nothing behind it, is the first word of the value. All this is about values of one line, because
a text never runs over a line feed.
-/
import OutlineTex.Preamble
import OutlineTex.Proofs.Directive.Forms

set_option autoImplicit false

namespace OutlineTex.Directive

open OutlineTex.Text

/-! ## The grammar -/

/-- The first word of a value: all that stands before its first blank. -/
def head (value : List Char) : List Char :=
  value.takeWhile (!isBlank ·)

/-- What stands behind the first word, blanks included. -/
def behindHead (value : List Char) : List Char :=
  value.dropWhile (!isBlank ·)

/-- What stands behind the first word, without the blanks in front. -/
def argument (value : List Char) : List Char :=
  trimStart (behindHead value)

/-- The first word is an exclamation mark and a name, in any case. -/
def HasName (value : List Char) (name : String) : Prop :=
  (head value).map plainLetter = '!' :: name.toList

instance (value : List Char) (name : String) : Decidable (HasName value name) :=
  inferInstanceAs (Decidable (_ = _))

/-- What a value has to be for each directive. -/
def Means (value : List Char) : Directive → Prop
  | .inclusion once names =>
    HasName value (if once then "include-" else "include") ∧
      names = (words (argument value)).map String.ofList
  | .verbatim text => HasName value "verbatim" ∧ text = String.ofList (argument value)
  | .preamble =>
    HasName value "preamble" ∨ ∃ word behind, value = word ++ behind ∧
      word.map plainLetter = "!documentclass".toList ∧ endsWord behind = true
  | .showPreliminary => HasName value "showpreliminary" ∧ argument value = []
  | .comment text => HasName value "comment" ∧ text = String.ofList (argument value)
  | .preliminary text => HasName value "preliminary" ∧ text = String.ofList (argument value)
  | .escaping on =>
    HasName value "escape" ∧ (words (argument value) = [] ∧ on = false ∨
      ∃ word, words (argument value) = [word] ∧ on = isOn word)
  | .format temporary code =>
    HasName value (if temporary then "tmpformat" else "format") ∧
      words (argument value) = [code.toList]
  | .script verbose code =>
    (HasName value (if verbose then "ruby-verbose" else "ruby") ∨
        HasName value (if verbose then "python-verbose" else "python")) ∧
      code = String.ofList (argument value)

/-! ## The first word -/

/-- What may stand behind a word: nothing, or a blank first. -/
def IsBehindWord (rest : List Char) : Prop :=
  rest = [] ∨ startsBlank rest = true

/-- A name without blanks. -/
def IsWord (name : String) : Prop :=
  ∀ c ∈ name.toList, isBlank c = false

instance (name : String) : Decidable (IsWord name) :=
  List.decidableBAll _ _

/-- A blank is no case form of another character. -/
theorem plainLetter_of_isBlank {c : Char} (h : isBlank c = true) : plainLetter c = c := by
  simp only [isBlank, Bool.or_eq_true, Bool.and_eq_true, decide_eq_true_eq, beq_iff_eq] at h
  unfold plainLetter
  split
  · omega
  · omega
  · omega
  · unfold Char.toLower
    split
    · next hupper =>
      have hfirst : 65 ≤ c.toNat := hupper.1
      have hlast : c.toNat ≤ 90 := hupper.2
      omega
    · rfl

theorem isBlank_of_map_plainLetter {word : List Char} {name : String} (hname : IsWord name)
    (h : word.map plainLetter = '!' :: name.toList) : ∀ c ∈ word, isBlank c = false := by
  intro c hc
  by_contra hblank
  have hself : plainLetter c = c := plainLetter_of_isBlank (by simpa using hblank)
  have hmem : c ∈ '!' :: name.toList := by
    rw [← h, ← hself]
    exact List.mem_map_of_mem hc
  rcases List.mem_cons.mp hmem with rfl | hmem
  · exact hblank (by decide)
  · exact hblank (hname c hmem)

/-- A name at the head of a value is a word of case forms of its letters, behind the mark. -/
theorem after?_eq_some_iff {name : String} {value rest : List Char} :
    after? name value = some rest ↔
      ∃ word, value = word ++ rest ∧ word.map plainLetter = '!' :: name.toList := by
  have hmark : ∀ c, plainLetter c = '!' ↔ c = '!' := fun c => plainLetter_eq_iff (by decide)
  constructor
  · intro h
    obtain ⟨behind, rfl⟩ := exists_of_after? h
    obtain ⟨word, rfl, hword⟩ := afterName?_eq_some_iff.mp h
    exact ⟨'!' :: word, rfl, by rw [List.map_cons, hword, (hmark '!').mpr rfl]⟩
  · rintro ⟨word, rfl, hword⟩
    obtain ⟨c, word, rfl, hc, hname⟩ := List.map_eq_cons_iff.mp hword
    obtain rfl := (hmark c).mp hc
    exact afterName?_eq_some_iff.mpr ⟨word, rfl, hname⟩

theorem head_append {word rest : List Char} (hword : ∀ c ∈ word, isBlank c = false)
    (hrest : IsBehindWord rest) : head (word ++ rest) = word ∧ behindHead (word ++ rest) = rest := by
  have hall : ∀ c ∈ word, (!isBlank c) = true := by
    intro c hc
    rw [hword c hc]
    rfl
  unfold head behindHead
  rw [List.takeWhile_append_of_pos hall, List.dropWhile_append_of_pos hall]
  rcases hrest with rfl | hblank
  · simp
  · cases rest with
    | nil => simp
    | cons c rest =>
      have hc : isBlank c = true := hblank
      simp [hc]

theorem isBehindWord_behindHead (value : List Char) : IsBehindWord (behindHead value) := by
  unfold behindHead
  cases h : value.dropWhile (!isBlank ·) with
  | nil => exact .inl rfl
  | cons c rest =>
    refine .inr ?_
    have hc := List.head?_dropWhile_not (!isBlank ·) value
    rw [h] at hc
    simpa [startsBlank] using hc

/-- **A name is the first word.** A value has a name at its head, with a blank or nothing behind it,
if and only if the name is its first word. -/
theorem after?_isBehindWord_iff {name : String} (hname : IsWord name) {value rest : List Char} :
    after? name value = some rest ∧ IsBehindWord rest ↔
      HasName value name ∧ rest = behindHead value := by
  rw [after?_eq_some_iff]
  constructor
  · rintro ⟨⟨word, rfl, hword⟩, hrest⟩
    obtain ⟨hhead, hbehind⟩ := head_append (isBlank_of_map_plainLetter hname hword) hrest
    exact ⟨by rw [HasName, hhead, hword], hbehind.symm⟩
  · rintro ⟨hhas, rfl⟩
    refine ⟨⟨head value, ?_, hhas⟩, isBehindWord_behindHead value⟩
    exact List.takeWhile_append_dropWhile.symm

/-- So a reader of what stands behind a name, which reads nothing but what may stand behind a word,
reads the argument. -/
theorem after?_bind_iff {α : Type} {name : String} (hname : IsWord name) {value : List Char}
    {reader : List Char → Option α} {a : α} (P : List Char → Prop)
    (h : ∀ rest, after? name value = some rest →
      (reader rest = some a ↔ IsBehindWord rest ∧ P (trimStart rest))) :
    (after? name value).bind reader = some a ↔ HasName value name ∧ P (argument value) := by
  rw [Option.bind_eq_some_iff]
  constructor
  · rintro ⟨rest, hafter, hread⟩
    obtain ⟨hrest, hP⟩ := (h rest hafter).mp hread
    obtain ⟨hhas, rfl⟩ := (after?_isBehindWord_iff hname).mp ⟨hafter, hrest⟩
    exact ⟨hhas, hP⟩
  · rintro ⟨hhas, hP⟩
    obtain ⟨hafter, hrest⟩ := (after?_isBehindWord_iff hname).mpr ⟨hhas, rfl⟩
    exact ⟨_, hafter, (h _ hafter).mpr ⟨hrest, hP⟩⟩

/-! ## What stands behind it -/

/-- A text that begins with no blank begins with its first word. -/
theorem exists_words_eq_cons {c : Char} {rest : List Char} (hc : isBlank c = false) :
    ∃ others, words (c :: rest) = head (c :: rest) :: others := by
  have hhead : head (c :: rest) ≠ [] := by
    simp [head, hc]
  have hword : ∀ d ∈ head (c :: rest), isBlank d = false := by
    intro d hd
    simpa using List.mem_takeWhile_imp hd
  have hcut : head (c :: rest) ++ behindHead (c :: rest) = c :: rest :=
    List.takeWhile_append_dropWhile
  suffices h : ∃ others, words (head (c :: rest) ++ behindHead (c :: rest)) =
      head (c :: rest) :: others by rwa [hcut] at h
  rcases isBehindWord_behindHead (c :: rest) with hnil | hblank
  · rw [hnil, List.append_nil]
    exact ⟨[], wordsBy_word hhead hword⟩
  · cases hbehind : behindHead (c :: rest) with
    | nil =>
      rw [hbehind] at hblank
      exact absurd hblank Bool.false_ne_true
    | cons d behind =>
      rw [hbehind] at hblank
      exact ⟨_, wordsBy_word_cons hhead hword hblank behind⟩

/-- A text has no words if and only if it has nothing but blanks. -/
theorem words_eq_nil_iff (s : List Char) : words s = [] ↔ trimStart s = [] := by
  rw [← words_trimStart]
  cases h : trimStart s with
  | nil => exact ⟨fun _ => rfl, fun _ => rfl⟩
  | cons c rest =>
    -- what is left begins with no blank, and so with a word
    have hc := List.head?_dropWhile_not isBlank s
    have hfirst : isBlank c = false := by
      rw [show s.dropWhile isBlank = c :: rest from h] at hc
      simpa using hc
    obtain ⟨others, hwords⟩ : ∃ others, words (c :: rest) = head (c :: rest) :: others :=
      exists_words_eq_cons hfirst
    simp [hwords]

/-- Nothing but blanks stand behind a word if and only if the argument is empty. -/
theorem all_isBlank_iff {rest : List Char} :
    rest.all isBlank = true ↔ IsBehindWord rest ∧ trimStart rest = [] := by
  rw [trimStart, List.dropWhile_eq_nil_iff, List.all_eq_true]
  refine ⟨fun h => ⟨?_, h⟩, And.right⟩
  cases rest with
  | nil => exact .inl rfl
  | cons c rest => exact .inr (h c List.mem_cons_self)

/-- On one line, a text behind a word is all that stands there behind the blanks. -/
theorem tail?_eq_some_iff {rest text : List Char} (hline : '\n' ∉ rest) :
    tail? rest = some text ↔ IsBehindWord rest ∧ text = trimStart rest := by
  cases rest with
  | nil =>
    have hnil : tail? [] = some [] := rfl
    rw [hnil, Option.some.injEq]
    exact ⟨fun h => ⟨.inl rfl, h.symm⟩, fun h => h.2.symm⟩
  | cons c rest =>
    by_cases hblank : startsBlank (c :: rest) = true
    · rw [tail?_of_startsBlank hblank hline, Option.some.injEq]
      exact ⟨fun h => ⟨.inr hblank, h.symm⟩, fun h => h.2.symm⟩
    · have hnone : tail? (c :: rest) = none := by
        simp [tail?, hblank]
      simp [hnone, IsBehindWord, hblank]

/-- Behind a word, a single word of the argument is the only word there is. -/
theorem words?_eq_singleton_iff {rest word : List Char} :
    words? rest = some [word] ↔ IsBehindWord rest ∧ words (trimStart rest) = [word] := by
  rw [words_trimStart]
  by_cases hblank : startsBlank rest = true
  · simp [words?, hblank, IsBehindWord]
  · rw [words?, if_neg hblank]
    refine ⟨fun h => absurd h (by simp), ?_⟩
    rintro ⟨rfl | hstarts, hword⟩
    · exact absurd hword (by simp [words, wordsBy, wordsBy.go])
    · exact absurd hstarts hblank

/-- Reads the only word behind a name. -/
def oneWord? (build : List Char → Directive) (rest : List Char) : Option Directive :=
  (words? rest).bind fun
    | [word] => some (build word)
    | _ => none

/-- The only word behind a name is the only word of the argument. -/
theorem oneWord?_eq_some_iff {build : List Char → Directive} {rest : List Char}
    {directive : Directive} : oneWord? build rest = some directive ↔
      IsBehindWord rest ∧ ∃ word, words (trimStart rest) = [word] ∧ directive = build word := by
  rw [oneWord?, Option.bind_eq_some_iff]
  constructor
  · rintro ⟨found, hfound, h⟩
    split at h
    · next word =>
      obtain ⟨hrest, hword⟩ := words?_eq_singleton_iff.mp hfound
      exact ⟨hrest, word, hword, (Option.some.inj h).symm⟩
    · exact absurd h (by simp)
  · rintro ⟨hrest, word, hword, rfl⟩
    exact ⟨[word], words?_eq_singleton_iff.mpr ⟨hrest, hword⟩, rfl⟩

/-- What follows a name in a value of one line is of one line. -/
theorem feedFree_of_after? {name : String} {value rest : List Char} (hline : '\n' ∉ value)
    (h : after? name value = some rest) : '\n' ∉ rest :=
  fun hfeed => hline ((suffix_of_after? h).subset hfeed)

/-! ## Names with a further word -/

/-- Whether a further word stands right behind a name, and what is behind both. -/
def optional (word : String) (rest : List Char) : Bool × List Char :=
  match afterName? word.toList rest with
  | some behind => (true, behind)
  | none => (false, rest)

theorem optional_eq_true_iff {word : String} {rest behind : List Char} :
    optional word rest = (true, behind) ↔ afterName? word.toList rest = some behind := by
  unfold optional
  cases afterName? word.toList rest <;> simp

theorem optional_eq_false_iff {word : String} {rest behind : List Char} :
    optional word rest = (false, behind) ↔ afterName? word.toList rest = none ∧ rest = behind := by
  unfold optional
  cases afterName? word.toList rest <;> simp

/-- With a further word, a name is another name. -/
theorem after?_append (name word : String) (value : List Char) :
    after? (name ++ word) value = (after? name value).bind (afterName? word.toList) := by
  unfold after?
  split
  · rw [String.toList_append, afterName?_append]
  · rfl

/-- No further word stands behind one. -/
theorem afterName?_of_isBehindWord {word : String} (hword : IsWord word) (hne : word.toList ≠ [])
    {rest : List Char} (hrest : IsBehindWord rest) : afterName? word.toList rest = none := by
  refine Option.eq_none_iff_forall_ne_some.mpr fun behind h => ?_
  obtain ⟨text, rfl, htext⟩ := afterName?_eq_some_iff.mp h
  cases text with
  | nil => exact hne htext.symm
  | cons c text =>
    rcases hrest with hnil | hblank
    · exact absurd hnil (List.cons_ne_nil _ _)
    · have hc : isBlank c = true := hblank
      have hmem : c ∈ word.toList := by
        rw [← htext, List.map_cons, plainLetter_of_isBlank hc]
        exact List.mem_cons_self
      exact absurd hc (by simp [hword c hmem])

/-- A directive whose name may have a further word right behind it, and that takes a text. -/
def withOption? (name word : String) (build : Bool → List Char → Directive) (value : List Char) :
    Option Directive :=
  (after? name value).bind fun rest =>
    (tail? (optional word rest).2).map (build (optional word rest).1)

/-- No other character is read as a dash. -/
theorem optional_dash_of_ne {c : Char} (hc : c ≠ '-') (rest : List Char) :
    optional "-" (c :: rest) = (false, c :: rest) := by
  have hne : (plainLetter c == '-') = false := by
    have hplain := @plainLetter_eq_iff c '-' (by decide)
    simpa [hplain] using hc
  have hnone : afterName? "-".toList (c :: rest) = none := by
    show (if plainLetter c == '-' then afterName? [] rest else none) = none
    rw [hne]
    rfl
  exact optional_eq_false_iff.mpr ⟨hnone, rfl⟩

/-- An inclusion may have a dash right behind its name, -/
theorem inclusion?_eq (value : List Char) : inclusion? value =
    withOption? "include" "-" (fun once text => .inclusion once ((words text).map String.ofList))
      value := by
  unfold inclusion?
  refine congrArg ((after? "include" value).bind ·) (funext fun rest => ?_)
  rw [Option.map_eq_bind]
  cases rest with
  | nil => rfl
  | cons c rest =>
    by_cases hc : c = '-'
    · subst hc
      rfl
    · rw [optional_dash_of_ne hc]
      dsimp only
      split
      · next h => exact absurd (List.cons.inj h).1 hc
      · rfl

/-- and a script its own further word. It goes by two names, and no value has both. -/
theorem script?_eq_some_iff_or {value : List Char} {directive : Directive} :
    script? value = some directive ↔ ∃ name ∈ ["ruby", "python"],
      withOption? name "-verbose" (fun verbose text => .script verbose (String.ofList text)) value =
        some directive := by
  have hbuild : script? value = ((after? "ruby" value).orElse fun _ => after? "python" value).bind
      fun rest => (tail? (optional "-verbose" rest).2).map fun text =>
        .script (optional "-verbose" rest).1 (String.ofList text) := by
    unfold script?
    refine congrArg (Option.bind _ ·) (funext fun rest => ?_)
    rw [Option.map_eq_bind]
    rfl
  simp only [hbuild, List.mem_cons, List.not_mem_nil, or_false, exists_eq_or_imp, exists_eq_left]
  unfold withOption?
  cases hruby : after? "ruby" value with
  | none => simp
  | some rest =>
    have hpython : after? "python" value = none := after?_eq_none hruby (by decide) (by decide)
    simp [hpython]

/-! ## Forms that take a text -/

section Forms

variable {value : List Char} (hline : '\n' ∉ value)
include hline

theorem after?_tail?_iff {name : String} (hname : IsWord name) {text : List Char} :
    (after? name value).bind tail? = some text ↔ HasName value name ∧ text = argument value := by
  refine after?_bind_iff hname (text = ·) fun rest hafter => ?_
  exact tail?_eq_some_iff (feedFree_of_after? hline hafter)

theorem withText?_eq_some_iff {name : String} (hname : IsWord name) {build : String → Directive}
    {directive : Directive} : withText? name build value = some directive ↔
      HasName value name ∧ directive = build (String.ofList (argument value)) := by
  have hmap : withText? name build value =
      ((after? name value).bind tail?).map fun text => build (String.ofList text) := by
    rw [Option.map_eq_bind, Option.bind_assoc]
    rfl
  rw [hmap, Option.map_eq_some_iff]
  constructor
  · rintro ⟨text, htext, rfl⟩
    obtain ⟨hhas, rfl⟩ := (after?_tail?_iff hline hname).mp htext
    exact ⟨hhas, rfl⟩
  · rintro ⟨hhas, rfl⟩
    exact ⟨_, (after?_tail?_iff hline hname).mpr ⟨hhas, rfl⟩, rfl⟩

/-- With the further word that it may have, a name is another name. -/
theorem withOption?_eq_some_iff {name word : String} (hname : IsWord name) (hword : IsWord word)
    (hne : word.toList ≠ []) {build : Bool → List Char → Directive} {directive : Directive} :
    withOption? name word build value = some directive ↔ ∃ given,
      HasName value (if given then name ++ word else name) ∧
        directive = build given (argument value) := by
  have hboth : IsWord (name ++ word) := by
    intro c hc
    rw [String.toList_append] at hc
    exact (List.mem_append.mp hc).elim (hname c) (hword c)
  unfold withOption?
  rw [Option.bind_eq_some_iff]
  constructor
  · rintro ⟨rest, hafter, hbuilt⟩
    obtain ⟨text, htail, rfl⟩ := Option.map_eq_some_iff.mp hbuilt
    cases hoption : optional word rest with
    | mk given behind =>
      rw [hoption] at htail
      cases given with
      | true =>
        have hlonger : (after? (name ++ word) value).bind tail? = some text := by
          rw [after?_append, hafter, Option.bind_some, optional_eq_true_iff.mp hoption]
          exact htail
        obtain ⟨hhas, rfl⟩ := (after?_tail?_iff hline hboth).mp hlonger
        exact ⟨true, hhas, rfl⟩
      | false =>
        obtain ⟨-, rfl⟩ := optional_eq_false_iff.mp hoption
        have hplain : (after? name value).bind tail? = some text := by
          rw [hafter]
          exact htail
        obtain ⟨hhas, rfl⟩ := (after?_tail?_iff hline hname).mp hplain
        exact ⟨false, hhas, rfl⟩
  · rintro ⟨given, hhas, rfl⟩
    cases given with
    | true =>
      have hlonger := (after?_tail?_iff hline hboth).mpr ⟨hhas, rfl⟩
      rw [after?_append, Option.bind_assoc, Option.bind_eq_some_iff] at hlonger
      obtain ⟨rest, hafter, hrest⟩ := hlonger
      obtain ⟨behind, hbehind, htail⟩ := Option.bind_eq_some_iff.mp hrest
      refine ⟨rest, hafter, ?_⟩
      rw [optional_eq_true_iff.mpr hbehind, htail]
      rfl
    | false =>
      obtain ⟨rest, hafter, htail⟩ := Option.bind_eq_some_iff.mp
        ((after?_tail?_iff hline hname).mpr ⟨hhas, rfl⟩)
      have hrest := ((tail?_eq_some_iff (feedFree_of_after? hline hafter)).mp htail).1
      have hnone := afterName?_of_isBehindWord hword hne hrest
      refine ⟨rest, hafter, ?_⟩
      rw [optional_eq_false_iff.mpr ⟨hnone, rfl⟩, htail]
      rfl

theorem inclusion?_eq_some_iff {directive : Directive} :
    inclusion? value = some directive ↔ ∃ once,
      HasName value (if once then "include-" else "include") ∧
        directive = .inclusion once ((words (argument value)).map String.ofList) := by
  rw [inclusion?_eq]
  exact withOption?_eq_some_iff hline (by decide) (by decide) (by decide)

theorem script?_eq_some_iff {directive : Directive} :
    script? value = some directive ↔ ∃ verbose,
      (HasName value (if verbose then "ruby-verbose" else "ruby") ∨
        HasName value (if verbose then "python-verbose" else "python")) ∧
        directive = .script verbose (String.ofList (argument value)) := by
  have hname : ∀ name, IsWord name →
      (withOption? name "-verbose" (fun verbose text => .script verbose (String.ofList text)) value =
        some directive ↔ ∃ verbose, HasName value (if verbose then name ++ "-verbose" else name) ∧
          directive = .script verbose (String.ofList (argument value))) :=
    fun name hname => withOption?_eq_some_iff hline hname (by decide) (by decide)
  rw [script?_eq_some_iff_or]
  simp only [List.mem_cons, List.not_mem_nil, or_false, exists_eq_or_imp, exists_eq_left]
  rw [hname _ (by decide), hname _ (by decide), ← exists_or]
  exact exists_congr fun verbose => or_and_right.symm

end Forms

/-! ## Forms that take words -/

section Words

variable {value : List Char} {directive : Directive}

theorem showPreliminary?_eq_some_iff : showPreliminary? value = some directive ↔
    HasName value "showpreliminary" ∧ argument value = [] ∧ directive = .showPreliminary := by
  refine after?_bind_iff (by decide) (fun text => text = [] ∧ directive = .showPreliminary) ?_
  intro rest _
  rw [Option.ite_none_right_eq_some, Option.some.injEq, all_isBlank_iff, and_assoc,
    eq_comm (b := directive)]

/-- Escaping is switched by one word or by none. -/
theorem escaping?_eq_some_iff : escaping? value = some directive ↔ HasName value "escape" ∧
    (words (argument value) = [] ∧ directive = .escaping false ∨
      ∃ word, words (argument value) = [word] ∧ directive = .escaping (isOn word)) := by
  refine after?_bind_iff (by decide) (fun text => words text = [] ∧ directive = .escaping false ∨
    ∃ word, words text = [word] ∧ directive = .escaping (isOn word)) ?_
  intro rest _
  by_cases hall : rest.all isBlank = true
  · obtain ⟨hrest, hempty⟩ := all_isBlank_iff.mp hall
    have hwords : words (trimStart rest) = [] := by
      rw [hempty]
      rfl
    rw [if_pos hall, hwords]
    simp [hrest, eq_comm]
  · have hwords : IsBehindWord rest → words (trimStart rest) ≠ [] := by
      intro hrest hnone
      rw [words_trimStart, words_eq_nil_iff] at hnone
      exact hall (all_isBlank_iff.mpr ⟨hrest, hnone⟩)
    rw [if_neg hall]
    refine oneWord?_eq_some_iff.trans ?_
    constructor
    · rintro ⟨hrest, hword⟩
      exact ⟨hrest, .inr hword⟩
    · rintro ⟨hrest, ⟨hnone, -⟩ | hword⟩
      · exact absurd hnone (hwords hrest)
      · exact ⟨hrest, hword⟩

/-- A switch of styles goes by two names, and no value has both. -/
theorem format?_eq_some_iff_or : format? value = some directive ↔ ∃ temporary : Bool,
    (after? (if temporary then "tmpformat" else "format") value).bind
      (oneWord? fun code => .format temporary (String.ofList code)) = some directive := by
  rw [Bool.exists_bool, if_pos rfl, if_neg Bool.false_ne_true]
  cases htemporary : after? "tmpformat" value with
  | none =>
    have hbuild : format? value = (after? "format" value).bind
        (oneWord? fun code => .format false (String.ofList code)) := by
      unfold format?
      rw [htemporary]
      cases after? "format" value <;> rfl
    simp [hbuild]
  | some rest =>
    have hbuild : format? value = oneWord? (fun code => .format true (String.ofList code)) rest := by
      unfold format?
      rw [htemporary]
      rfl
    have hformat : after? "format" value = none :=
      after?_eq_none htemporary (by decide) (by decide)
    simp [hbuild, hformat]

theorem format?_eq_some_iff : format? value = some directive ↔ ∃ temporary,
    HasName value (if temporary then "tmpformat" else "format") ∧
      ∃ code, words (argument value) = [code] ∧
        directive = .format temporary (String.ofList code) := by
  have hname : ∀ temporary : Bool, IsWord (if temporary then "tmpformat" else "format") := by
    decide
  rw [format?_eq_some_iff_or]
  refine exists_congr fun temporary => ?_
  refine after?_bind_iff (hname temporary) (fun text => ∃ code, words text = [code] ∧
    directive = .format temporary (String.ofList code)) ?_
  exact fun rest _ => oneWord?_eq_some_iff

end Words

/-! ## Parts of the preamble -/

/-- On one line, the document class is named wherever its name ends a word. -/
theorem isSome_documentClass?_iff {value : List Char} (hline : '\n' ∉ value) :
    (documentClass? value).isSome = true ↔ ∃ word behind, value = word ++ behind ∧
      word.map plainLetter = "!documentclass".toList ∧ endsWord behind = true := by
  have hread : ∀ rest, after? "documentclass" value = some rest →
      ((if endsWord rest then line? rest else none).isSome = true ↔ endsWord rest = true) := by
    intro rest hafter
    rw [line?_of_not_mem (feedFree_of_after? hline hafter)]
    cases endsWord rest <;> simp
  constructor
  · intro h
    obtain ⟨text, htext⟩ := Option.isSome_iff_exists.mp h
    obtain ⟨rest, hafter, hrest⟩ := Option.bind_eq_some_iff.mp htext
    have hends := (hread rest hafter).mp (by rw [hrest]; rfl)
    obtain ⟨word, hvalue, hword⟩ := after?_eq_some_iff.mp hafter
    exact ⟨word, rest, hvalue, hword, hends⟩
  · rintro ⟨word, rest, hvalue, hword, hends⟩
    have hafter : after? "documentclass" value = some rest :=
      after?_eq_some_iff.mpr ⟨word, hvalue, hword⟩
    rw [documentClass?, hafter]
    exact (hread rest hafter).mpr hends

/-- No value is found in both ways. -/
theorem not_class_and_text (value : List Char) :
    ¬ ((documentClass? value).isSome = true ∧
      ((after? "preamble" value).bind tail?).isSome = true) := by
  rintro ⟨hclass, htext⟩
  obtain ⟨arguments, harguments⟩ := Option.isSome_iff_exists.mp hclass
  obtain ⟨rest, hafter, -⟩ := Option.bind_eq_some_iff.mp harguments
  have hnone : after? "preamble" value = none := after?_eq_none hafter (by decide) (by decide)
  rw [hnone] at htext
  exact absurd htext (by simp)

/-! ## Values -/

variable {value : String}

/-- A value of one line is recognised as a directive if and only if it is what the grammar asks for.
The cases are the directives. -/
theorem ofValue?_eq_some_iff (hline : '\n' ∉ value.toList) (directive : Directive) :
    ofValue? value = some directive ↔ Means value.toList directive := by
  rw [ofValue?_eq_some_iff_form]
  cases directive with
  | inclusion once names =>
    rw [form, inclusion?_eq_some_iff hline, Means]
    constructor
    · rintro ⟨given, hhas, hbuilt⟩
      obtain ⟨rfl, rfl⟩ := Directive.inclusion.inj hbuilt
      exact ⟨hhas, rfl⟩
    · rintro ⟨hhas, rfl⟩
      exact ⟨once, hhas, rfl⟩
  | verbatim text =>
    rw [form, withText?_eq_some_iff hline (by decide), Directive.verbatim.injEq, Means]
  | preamble =>
    rw [← ofValue?_eq_some_iff_form, ofValue?_eq_preamble_iff hline, or_comm]
    refine or_congr ?_ (isSome_documentClass?_iff hline)
    rw [Option.isSome_iff_exists]
    simp only [after?_tail?_iff hline (show IsWord "preamble" by decide), exists_and_left,
      exists_eq, and_true]
  | showPreliminary =>
    rw [form, showPreliminary?_eq_some_iff, Means]
    simp
  | comment text =>
    rw [form, withText?_eq_some_iff hline (by decide), Directive.comment.injEq, Means]
  | preliminary text =>
    rw [form, withText?_eq_some_iff hline (by decide), Directive.preliminary.injEq, Means]
  | escaping on =>
    rw [form, escaping?_eq_some_iff, Means]
    simp only [Directive.escaping.injEq]
  | format temporary code =>
    rw [form, format?_eq_some_iff, Means]
    constructor
    · rintro ⟨given, hhas, word, hword, hbuilt⟩
      obtain ⟨rfl, rfl⟩ := Directive.format.inj hbuilt
      exact ⟨hhas, by rw [hword, String.toList_ofList]⟩
    · rintro ⟨hhas, hword⟩
      exact ⟨temporary, hhas, code.toList, hword, by rw [String.ofList_toList]⟩
  | script verbose code =>
    rw [form, script?_eq_some_iff hline, Means]
    constructor
    · rintro ⟨given, hhas, hbuilt⟩
      obtain ⟨rfl, rfl⟩ := Directive.script.inj hbuilt
      exact ⟨hhas, rfl⟩
    · rintro ⟨hhas, rfl⟩
      exact ⟨verbose, hhas, rfl⟩

/-- The forms may be tried in any order. -/
theorem findSome?_of_perm {order : List (List Char → Option Directive)} (h : order.Perm forms)
    (value : String) : order.findSome? (· value.toList) = ofValue? value := by
  have hpairs : order.Pairwise fun form other =>
      form value.toList = none ∨ other value.toList = none :=
    (h.pairwise_iff fun hor => Or.symm hor).mpr (pairwise_forms value.toList)
  ext directive
  rw [findSome?_eq_some_iff_of_pairwise hpairs, ofValue?,
    findSome?_eq_some_iff_of_pairwise (pairwise_forms value.toList)]
  exact exists_congr fun form => and_congr_left fun _ => h.mem_iff

/-- **The grammar is what is accepted.** A value of one line is recognised as a directive if and
only if the grammar says that it is this one, and is text if the grammar says nothing. It has at
most one of the forms, so their order does not matter. And the two ways in which the preamble is
gathered find exactly the values that are recognised as parts of it, each in one way. -/
theorem ofValue?_accepts_grammar (hline : '\n' ∉ value.toList) :
    (∀ directive, ofValue? value = some directive ↔ Means value.toList directive) ∧
      (ofValue? value = none ↔ ∀ directive, ¬ Means value.toList directive) ∧
      (forms.Pairwise fun form other => form value.toList = none ∨ other value.toList = none) ∧
      (∀ order : List (List Char → Option Directive), order.Perm forms →
        order.findSome? (· value.toList) = ofValue? value) ∧
      [Preamble.classOf? value, Preamble.textOf? value].countP Option.isSome =
        if ofValue? value = some .preamble then 1 else 0 := by
  have hmeans := ofValue?_eq_some_iff hline
  refine ⟨hmeans, ?_, pairwise_forms _, fun order horder => findSome?_of_perm horder value, ?_⟩
  · rw [Option.eq_none_iff_forall_ne_some]
    exact forall_congr' fun directive => not_congr (hmeans directive)
  · have hclass : (Preamble.classOf? value).isSome = (documentClass? value.toList).isSome := by
      rw [Preamble.classOf?, Option.isSome_map]
    have htext : (Preamble.textOf? value).isSome =
        ((after? "preamble" value.toList).bind tail?).isSome := by
      rw [Preamble.textOf?, Option.isSome_map]
    have hone := not_class_and_text value.toList
    rw [List.countP_cons, List.countP_singleton, hclass, htext]
    simp only [ofValue?_eq_preamble_iff hline]
    cases hc : (documentClass? value.toList).isSome with
    | true =>
      have hnone : ((after? "preamble" value.toList).bind tail?).isSome = false := by
        simpa [hc] using hone
      simp [hnone]
    | false => simp

/-- An inclusion with a dotless letter in its name, and blanks of several kinds. -/
theorem ofValue?_accepts_grammar_dotless :
    let value := "!ıNCLUDE-\u00a0 a.otl\tb.tex "
    '\n' ∉ value.toList ∧ Means value.toList (.inclusion true ["a.otl", "b.tex"]) ∧
      ofValue? value = some (.inclusion true ["a.otl", "b.tex"]) ∧
      [Preamble.classOf? value, Preamble.textOf? value].countP Option.isSome = 0 := by
  intro value
  have hline : '\n' ∉ value.toList := by decide
  have hmeans : Means value.toList (.inclusion true ["a.otl", "b.tex"]) :=
    ⟨by decide, by decide⟩
  obtain ⟨hrecognised, -, -, -, hparts⟩ := ofValue?_accepts_grammar hline
  have hvalue := (hrecognised _).mpr hmeans
  rw [hvalue] at hparts
  exact ⟨hline, hmeans, hvalue, hparts⟩

end OutlineTex.Directive
