/-
Blank characters, and the two things a program does with them: cut them off the ends
of a text and cut a text into words.

The class is the one that text editors use for white space in any script, twenty-nine
characters in all. Beyond the six ASCII blanks, which numerals and help texts go by, it
holds the file, group, record and unit separators, the next-line control and the Unicode
spaces. It leaves out what has no width: the zero-width space, the byte order mark and
the Mongolian vowel separator are ordinary characters here.

Everything works on lists of characters, because the outline reader, the directive
grammar and the settings all look at texts one character at a time.
-/

set_option autoImplicit false

namespace OutlineTex.Text

/-! ## The class -/

/-- A blank: a tab, a line or page break, one of the four information separators, a
space of any script, or a line or paragraph separator. -/
def isBlank (c : Char) : Bool :=
  let n := c.toNat
  (0x09 ≤ n && n ≤ 0x0D) || (0x1C ≤ n && n ≤ 0x20) || n == 0x85 || n == 0xA0 || n == 0x1680
    || (0x2000 ≤ n && n ≤ 0x200A) || n == 0x2028 || n == 0x2029 || n == 0x202F || n == 0x205F
    || n == 0x3000

/-- One of the six blanks of ASCII: the space, the tab, and the four characters that move
to another line or page. -/
def isAsciiBlank (c : Char) : Bool :=
  c == ' ' || (0x09 ≤ c.toNat && c.toNat ≤ 0x0D)

/-! ## Cutting blanks off -/

/-- The text without its leading blanks. -/
def trimStart (s : List Char) : List Char :=
  s.dropWhile isBlank

/-- The text without its trailing blanks. -/
def trimEnd : List Char → List Char
  | [] => []
  | c :: rest =>
    match trimEnd rest with
    | [] => if isBlank c then [] else [c]
    | kept => c :: kept

/-- The text without the blanks on either side. -/
def trim (s : List Char) : List Char :=
  trimEnd (trimStart s)

/-- A text of blanks only is trimmed to nothing, and no other is. -/
theorem trimEnd_eq_nil_iff (s : List Char) : trimEnd s = [] ↔ s.all isBlank = true := by
  induction s with
  | nil => simp [trimEnd]
  | cons c rest ih =>
    cases h : trimEnd rest with
    | nil =>
      have := ih.mp h
      by_cases hc : isBlank c <;> simp_all [trimEnd]
    | cons d kept =>
      have hne : ¬ rest.all isBlank = true := by rw [← ih, h]; simp
      simp_all [trimEnd]

/-- Cutting blanks off the end leaves a beginning of the text. -/
theorem trimEnd_isPrefix (s : List Char) : trimEnd s <+: s := by
  induction s with
  | nil => exact List.prefix_refl _
  | cons c rest ih =>
    rw [trimEnd]
    split
    · split
      · exact List.nil_prefix
      · exact List.cons_prefix_cons.mpr ⟨rfl, List.nil_prefix⟩
    · exact List.cons_prefix_cons.mpr ⟨rfl, ih⟩

/-- A character that is no blank stays where it is when blanks are cut off behind it. -/
theorem trimEnd_cons_of_not_isBlank {c : Char} (hc : isBlank c = false) (rest : List Char) :
    trimEnd (c :: rest) = c :: trimEnd rest := by
  rw [trimEnd]
  cases trimEnd rest with
  | nil => simp [hc]
  | cons d kept => rfl

/-! ## Words -/

/-- The longest stretches of a text without a separating character, in order. -/
def wordsBy (separates : Char → Bool) (s : List Char) : List (List Char) :=
  go s []
where
  /-- Reads on with the word read so far, last character first. -/
  go : List Char → List Char → List (List Char)
    | [], [] => []
    | [], word => [word.reverse]
    | c :: rest, [] => if separates c then go rest [] else go rest [c]
    | c :: rest, word => if separates c then word.reverse :: go rest [] else go rest (c :: word)

/-- The words of a text: its longest stretches without a blank. -/
def words (s : List Char) : List (List Char) :=
  wordsBy isBlank s

/-- Words are cut where a character separates. The induction is on the reading, so it carries
along that none of the characters of the word read so far separates. -/
theorem of_mem_wordsBy_go {separates : Char → Bool} {s word : List Char}
    (hword : ∀ c ∈ word, separates c = false) :
    ∀ other ∈ wordsBy.go separates s word, other ≠ [] ∧ ∀ c ∈ other, separates c = false := by
  induction s, word using wordsBy.go.induct separates with
  | case1 => simp [wordsBy.go]
  | case2 word hne =>
    intro other hother
    rw [wordsBy.go, List.mem_singleton] at hother
    · subst hother
      exact ⟨by simpa using hne, fun c hc => hword c (List.mem_reverse.mp hc)⟩
    · exact hne
  | case3 c rest hc ih =>
    rw [wordsBy.go, if_pos hc]
    exact ih hword
  | case4 c rest hc ih =>
    rw [wordsBy.go, if_neg hc]
    exact ih (by simpa using hc)
  | case5 word c rest hne hc ih =>
    intro other hother
    rw [wordsBy.go, if_pos hc] at hother
    · rcases List.mem_cons.mp hother with rfl | hother
      · exact ⟨by simpa using hne, fun c hc => hword c (List.mem_reverse.mp hc)⟩
      · exact ih (fun _ h => absurd h List.not_mem_nil) other hother
    · exact hne
  | case6 word c rest hne hc ih =>
    rw [wordsBy.go, if_neg hc]
    · refine ih fun other hother => ?_
      rcases List.mem_cons.mp hother with rfl | hother
      · simpa using hc
      · exact hword other hother
    · exact hne

/-- A word has a character, and none that separates. -/
theorem of_mem_wordsBy {separates : Char → Bool} {s word : List Char}
    (h : word ∈ wordsBy separates s) : word ≠ [] ∧ ∀ c ∈ word, separates c = false :=
  of_mem_wordsBy_go (fun _ h => absurd h List.not_mem_nil) word h

/-- Reading on over characters of a word adds them to it. -/
theorem wordsBy_go_append {separates : Char → Bool} {word : List Char}
    (h : ∀ c ∈ word, separates c = false) (rest before : List Char) :
    wordsBy.go separates (word ++ rest) before =
      wordsBy.go separates rest (word.reverse ++ before) := by
  induction word generalizing before with
  | nil => rfl
  | cons c word ih =>
    have hc : ¬ separates c = true := by simp [h c List.mem_cons_self]
    rw [List.cons_append, List.reverse_cons, List.append_assoc, List.singleton_append,
      ← ih (fun other hother => h other (List.mem_cons_of_mem c hother))]
    cases before with
    | nil => rw [wordsBy.go, if_neg hc]
    | cons last before =>
      rw [wordsBy.go, if_neg hc]
      simp

/-- A word ends at the end of the text, -/
theorem wordsBy_word {separates : Char → Bool} {word : List Char} (hne : word ≠ [])
    (h : ∀ c ∈ word, separates c = false) : wordsBy separates word = [word] := by
  have hread := wordsBy_go_append h [] []
  rw [List.append_nil, List.append_nil] at hread
  rw [wordsBy, hread, wordsBy.go, List.reverse_reverse]
  simpa using hne

/-- and where a character separates. -/
theorem wordsBy_word_cons {separates : Char → Bool} {word : List Char} {c : Char} (hne : word ≠ [])
    (h : ∀ c ∈ word, separates c = false) (hc : separates c = true) (rest : List Char) :
    wordsBy separates (word ++ c :: rest) = word :: wordsBy separates rest := by
  rw [wordsBy, wordsBy_go_append h, List.append_nil, wordsBy.go, if_pos hc, List.reverse_reverse]
  · rfl
  · simpa using hne

/-- Words joined by spaces are read as these words. -/
theorem words_intercalate {names : List (List Char)}
    (h : ∀ name ∈ names, name ≠ [] ∧ ∀ c ∈ name, isBlank c = false) :
    words ([' '].intercalate names) = names := by
  induction names with
  | nil => rfl
  | cons name rest ih =>
    obtain ⟨hne, hword⟩ := h name List.mem_cons_self
    cases rest with
    | nil => rw [List.intercalate_singleton, words, wordsBy_word hne hword]
    | cons next rest =>
      rw [List.intercalate_cons_cons, List.append_assoc, List.singleton_append, words,
        wordsBy_word_cons hne hword (by decide)]
      exact congrArg (name :: ·) (ih fun other hother => h other (List.mem_cons_of_mem name hother))

/-- A character of words joined by spaces is a space or stands in one of the words. -/
theorem eq_space_or_mem_of_mem_intercalate {names : List (List Char)} {c : Char}
    (h : c ∈ [' '].intercalate names) : c = ' ' ∨ ∃ name ∈ names, c ∈ name := by
  induction names with
  | nil => exact absurd h (by simp [List.intercalate])
  | cons name rest ih =>
    cases rest with
    | nil =>
      rw [List.intercalate_singleton] at h
      exact .inr ⟨name, List.mem_cons_self, h⟩
    | cons next rest =>
      rw [List.intercalate_cons_cons, List.append_assoc, List.mem_append, List.mem_append,
        List.mem_singleton] at h
      rcases h with h | rfl | h
      · exact .inr ⟨name, List.mem_cons_self, h⟩
      · exact .inl rfl
      · exact (ih h).imp_right fun ⟨other, hother, hc⟩ =>
          ⟨other, List.mem_cons_of_mem name hother, hc⟩

/-- Blanks before the first word make no difference to the words. -/
theorem words_trimStart (s : List Char) : words (trimStart s) = words s := by
  induction s with
  | nil => rfl
  | cons c rest ih =>
    by_cases hc : isBlank c = true
    · have hread : words (c :: rest) = words rest := by
        rw [words, wordsBy, wordsBy.go, if_pos hc]
        rfl
      rw [trimStart, List.dropWhile_cons_of_pos hc, hread]
      exact ih
    · rw [trimStart, List.dropWhile_cons_of_neg hc]

end OutlineTex.Text
