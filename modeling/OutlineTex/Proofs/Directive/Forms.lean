/-
The forms of directives, read backwards.

A value that is recognised as a directive was recognised by one of the forms, and each form
builds directives of its own kind. So the directive tells which form the value has, and with
it what else is known of the text: the code of a switch of styles, for one, is a word.
-/
import Mathlib.Data.List.TakeWhile
import OutlineTex.Directive
import OutlineTex.Node

set_option autoImplicit false

namespace OutlineTex.Directive

open OutlineTex.Text

/-! ## The form of a directive -/

/-- The form that builds directives of the kind of this one. -/
def form : Directive → List Char → Option Directive
  | .inclusion .. => inclusion?
  | .verbatim _ => withText? "verbatim" .verbatim
  | .preamble => preamble?
  | .showPreliminary => showPreliminary?
  | .comment _ => withText? "comment" .comment
  | .preliminary _ => withText? "preliminary" .preliminary
  | .escaping _ => escaping?
  | .format .. => format?
  | .script .. => script?

variable {directive : Directive} {value : List Char}

theorem form_of_inclusion? (h : inclusion? value = some directive) :
    directive.form = inclusion? := by
  simp only [inclusion?, Option.bind_eq_bind, Option.bind_eq_some_iff] at h
  obtain ⟨rest, -, names, -, hbuilt⟩ := h
  rw [← Option.some.inj hbuilt, form]

theorem exists_of_withText? {name : String} {build : String → Directive}
    (h : withText? name build value = some directive) :
    ∃ rest text, tail? rest = some text ∧ directive = build (String.ofList text) := by
  simp only [withText?, Option.bind_eq_bind, Option.bind_eq_some_iff] at h
  obtain ⟨rest, -, text, htext, hbuilt⟩ := h
  exact ⟨rest, text, htext, (Option.some.inj hbuilt).symm⟩

theorem form_of_escaping? (h : escaping? value = some directive) :
    directive.form = escaping? := by
  simp only [escaping?, Option.bind_eq_bind, Option.bind_eq_some_iff] at h
  obtain ⟨rest, -, h⟩ := h
  split at h
  · rw [← Option.some.inj h, form]
  · obtain ⟨words, -, h⟩ := Option.bind_eq_some_iff.mp h
    split at h
    · rw [← Option.some.inj h, form]
    · exact absurd h (by simp)

/-- A switch of styles has one word, whichever of its two names it goes by. -/
theorem exists_of_format? (h : format? value = some directive) :
    ∃ temporary rest code, words? rest = some [code] ∧
      directive = .format temporary (String.ofList code) := by
  unfold format? at h
  split at h
  all_goals
    obtain ⟨⟨temporary, rest⟩, -, h⟩ := Option.bind_eq_some_iff.mp h
    obtain ⟨words, hwords, h⟩ := Option.bind_eq_some_iff.mp h
    split at h
    · exact ⟨temporary, rest, _, hwords, (Option.some.inj h).symm⟩
    · exact absurd h (by simp)

theorem form_of_script? (h : script? value = some directive) : directive.form = script? := by
  simp only [script?, Option.bind_eq_bind, Option.bind_eq_some_iff] at h
  obtain ⟨rest, -, code, -, hbuilt⟩ := h
  rw [← Option.some.inj hbuilt, form]

/-- A value that is recognised as a directive has the form of that directive, because no form
builds the directives of another. The cases are the forms. -/
theorem form_of_ofValue? {value : String} (h : ofValue? value = some directive) :
    directive.form value.toList = some directive := by
  obtain ⟨form, hform, hvalue⟩ := List.exists_of_findSome?_eq_some h
  suffices hkind : directive.form = form by rw [hkind, hvalue]
  simp only [forms, List.mem_cons, List.not_mem_nil, or_false] at hform
  rcases hform with rfl | rfl | rfl | rfl | rfl | rfl | rfl | rfl | rfl
  · exact form_of_inclusion? hvalue
  · obtain ⟨_, text, -, rfl⟩ := exists_of_withText? hvalue
    rfl
  · unfold preamble? at hvalue
    split at hvalue
    · rw [← Option.some.inj hvalue, Directive.form]
    · exact absurd hvalue (by simp)
  · simp only [showPreliminary?, Option.bind_eq_bind, Option.bind_eq_some_iff] at hvalue
    obtain ⟨rest, -, hvalue⟩ := hvalue
    split at hvalue
    · rw [← Option.some.inj hvalue, Directive.form]
    · exact absurd hvalue (by simp)
  · obtain ⟨_, text, -, rfl⟩ := exists_of_withText? hvalue
    rfl
  · obtain ⟨_, text, -, rfl⟩ := exists_of_withText? hvalue
    rfl
  · exact form_of_escaping? hvalue
  · obtain ⟨temporary, rest, code, -, rfl⟩ := exists_of_format? hvalue
    rfl
  · exact form_of_script? hvalue

/-! ## Names -/

/-- A value with a name has an exclamation mark before it. -/
theorem exists_of_after? {name : String} {rest : List Char} (h : after? name value = some rest) :
    ∃ behind, value = '!' :: behind := by
  unfold after? at h
  split at h
  · exact ⟨_, rfl⟩
  · exact absurd h (by simp)

/-- What follows a name that a value has stands at its end. -/
theorem suffix_of_after? {name : String} {value rest : List Char}
    (h : after? name value = some rest) : rest <:+ value := by
  unfold after? at h
  split at h
  · exact (suffix_of_afterName? h).trans (List.suffix_cons _ _)
  · exact absurd h (by simp)

/-- A value that has one name has no other, unless one name begins with the other. -/
theorem after?_eq_none {name other : String} {value rest : List Char}
    (h : after? name value = some rest) (hname : ¬ name.toList <+: other.toList)
    (hother : ¬ other.toList <+: name.toList) : after? other value = none := by
  rw [Option.eq_none_iff_forall_ne_some]
  intro behind hbehind
  unfold after? at h hbehind
  split at h
  · rcases prefix_of_afterName? h hbehind with hprefix | hprefix
    · exact hname hprefix
    · exact hother hprefix
  · exact absurd h (by simp)

/-- A part of the preamble has one of two names. -/
theorem exists_after?_of_preamble? (h : preamble? value = some directive) :
    ∃ name ∈ ["preamble", "documentclass"], ∃ rest, after? name value = some rest := by
  unfold preamble? at h
  split at h
  · next hparts =>
    rcases Bool.or_eq_true_iff.mp hparts with hpreamble | hclass
    · obtain ⟨rest, hrest, -⟩ := (Option.any_eq_true _ _).mp hpreamble
      exact ⟨_, List.mem_cons_self, rest, hrest⟩
    · obtain ⟨arguments, hclass⟩ := Option.isSome_iff_exists.mp hclass
      obtain ⟨rest, hrest, -⟩ := Option.bind_eq_some_iff.mp hclass
      exact ⟨_, List.mem_cons_of_mem _ List.mem_cons_self, rest, hrest⟩
  · exact absurd h (by simp)

/-- A switch of styles has one of two names, -/
theorem exists_after?_of_format? (h : format? value = some directive) :
    ∃ name ∈ ["tmpformat", "format"], ∃ rest, after? name value = some rest := by
  cases htemporary : after? "tmpformat" value with
  | some rest => exact ⟨_, List.mem_cons_self, rest, htemporary⟩
  | none =>
    cases hformat : after? "format" value with
    | some rest => exact ⟨_, List.mem_cons_of_mem _ List.mem_cons_self, rest, hformat⟩
    | none => exact absurd h (by simp [format?, htemporary, hformat])

/-- and so has a script. -/
theorem exists_after?_of_script? (h : script? value = some directive) :
    ∃ name ∈ ["ruby", "python"], ∃ rest, after? name value = some rest := by
  obtain ⟨rest, hrest, -⟩ := Option.bind_eq_some_iff.mp h
  cases hruby : after? "ruby" value with
  | some behind => exact ⟨_, List.mem_cons_self, behind, hruby⟩
  | none =>
    rw [hruby] at hrest
    exact ⟨_, List.mem_cons_of_mem _ List.mem_cons_self, rest, hrest⟩

/-- The forms, each with the names that it asks for. -/
def namedForms : List (List String × (List Char → Option Directive)) :=
  [(["include"], inclusion?), (["verbatim"], withText? "verbatim" .verbatim),
    (["preamble", "documentclass"], preamble?), (["showpreliminary"], showPreliminary?),
    (["comment"], withText? "comment" .comment),
    (["preliminary"], withText? "preliminary" .preliminary), (["escape"], escaping?),
    (["tmpformat", "format"], format?), (["ruby", "python"], script?)]

theorem map_snd_namedForms : namedForms.map Prod.snd = forms := rfl

/-- A value that has a form has one of the names that the form asks for. The cases are the
forms. -/
theorem exists_name {entry : List String × (List Char → Option Directive)}
    (hentry : entry ∈ namedForms) (h : entry.2 value = some directive) :
    ∃ name ∈ entry.1, ∃ rest, after? name value = some rest := by
  have hone : ∀ {name : String} {build : List Char → Option Directive},
      (after? name value).bind build = some directive →
        ∃ other ∈ [name], ∃ rest, after? other value = some rest := by
    intro name build hbuild
    obtain ⟨rest, hrest, -⟩ := Option.bind_eq_some_iff.mp hbuild
    exact ⟨name, List.mem_cons_self, rest, hrest⟩
  simp only [namedForms, List.mem_cons, List.not_mem_nil, or_false] at hentry
  rcases hentry with rfl | rfl | rfl | rfl | rfl | rfl | rfl | rfl | rfl
  · exact hone h
  · exact hone h
  · exact exists_after?_of_preamble? h
  · exact hone h
  · exact hone h
  · exact hone h
  · exact hone h
  · exact exists_after?_of_format? h
  · exact exists_after?_of_script? h

/-- No value has two forms, because no name of the one begins with a name of the other. -/
theorem pairwise_forms (value : List Char) :
    forms.Pairwise fun form other => form value = none ∨ other value = none := by
  have hnames : namedForms.Pairwise fun entry entry' => ∀ name ∈ entry.1, ∀ other ∈ entry'.1,
      ¬ name.toList <+: other.toList ∧ ¬ other.toList <+: name.toList := by
    decide
  rw [← map_snd_namedForms, List.pairwise_map]
  refine hnames.imp_of_mem fun {entry entry'} hentry hentry' happart => ?_
  cases h : entry.2 value with
  | none => exact .inl rfl
  | some directive =>
    refine .inr (Option.eq_none_iff_forall_ne_some.mpr fun other hother => ?_)
    obtain ⟨name, hname, rest, hrest⟩ := exists_name hentry h
    obtain ⟨name', hname', rest', hrest'⟩ := exists_name hentry' hother
    obtain ⟨hfirst, hsecond⟩ := happart name hname name' hname'
    exact absurd (hrest'.symm.trans (after?_eq_none hrest hfirst hsecond)) (by simp)

/-- Where at most one of some attempts succeeds, the first success is any success. -/
theorem findSome?_eq_some_iff_of_pairwise {α β : Type} {attempts : List (α → Option β)} {a : α}
    (h : attempts.Pairwise fun attempt other => attempt a = none ∨ other a = none) {b : β} :
    attempts.findSome? (· a) = some b ↔ ∃ attempt ∈ attempts, attempt a = some b := by
  refine ⟨List.exists_of_findSome?_eq_some, ?_⟩
  induction attempts with
  | nil => simp
  | cons attempt rest ih =>
    obtain ⟨hfirst, hrest⟩ := List.pairwise_cons.mp h
    rintro ⟨other, hother, hb⟩
    rcases List.mem_cons.mp hother with rfl | hother
    · rw [List.findSome?_cons, hb]
    · have hnone : attempt a = none := (hfirst other hother).resolve_right (by simp [hb])
      rw [List.findSome?_cons, hnone]
      exact ih hrest ⟨other, hother, hb⟩

/-- A value is recognised as a directive if and only if it has the form of the directive. -/
theorem ofValue?_eq_some_iff_form {value : String} :
    ofValue? value = some directive ↔ directive.form value.toList = some directive := by
  refine ⟨form_of_ofValue?, fun h => ?_⟩
  have hmem : directive.form ∈ forms := by
    cases directive <;> simp [form, forms]
  exact (findSome?_eq_some_iff_of_pairwise (pairwise_forms _)).mpr ⟨_, hmem, h⟩

/-! ## Continuations -/

/-- A text behind a name begins with no blank. -/
theorem isBlank_of_head?_tail? {rest line : List Char} {c : Char} (h : tail? rest = some line)
    (hhead : line.head? = some c) : isBlank c = false := by
  unfold tail? at h
  split at h
  · rw [← Option.some.inj h] at hhead
    exact absurd hhead (by simp)
  · split at h
    · have hline : line <+: trimStart rest := by
        unfold line? at h
        dsimp only at h
        split at h
        · rw [← Option.some.inj h]
          exact List.takeWhile_prefix _
        · exact absurd h (by simp)
      -- the line begins where the blanks have been cut off
      obtain ⟨behind, htrim⟩ := hline
      have hfirst : rest.find? (!isBlank ·) = some c := by
        rw [List.find?_not_eq_head?_dropWhile]
        show (trimStart rest).head? = some c
        rw [← htrim, List.head?_append, hhead]
        rfl
      simpa using List.find?_some hfirst
    · exact absurd h (by simp)

/-- A text that does not begin with a space continues no line. -/
theorem isContinuation_of_head? {value : String} (h : value.toList.head? ≠ some ' ') :
    Node.isContinuation (some value) = false := by
  unfold Node.isContinuation
  split
  · next hvalue =>
    rw [Option.map_some, Option.some.injEq] at hvalue
    exact absurd (by rw [hvalue]; rfl) h
  · rfl

/-- So no directive continues a line, -/
theorem isContinuation_of_ofValue? {value : String} (h : ofValue? value = some directive) :
    Node.isContinuation (some value) = false := by
  obtain ⟨form, hform, hvalue⟩ := List.exists_of_findSome?_eq_some h
  rw [← map_snd_namedForms] at hform
  obtain ⟨entry, hentry, rfl⟩ := List.mem_map.mp hform
  obtain ⟨name, -, rest, hafter⟩ := exists_name hentry hvalue
  obtain ⟨behind, hbehind⟩ := exists_of_after? hafter
  refine isContinuation_of_head? ?_
  rw [hbehind, List.head?_cons]
  decide

theorem isContinuation_of_bind {value : Option String}
    (h : value.bind ofValue? = some directive) : Node.isContinuation value = false := by
  obtain ⟨text, rfl, hdirective⟩ := Option.bind_eq_some_iff.mp h
  exact isContinuation_of_ofValue? hdirective

/-- and neither does the text of a preliminary part, which begins with no blank. -/
theorem isContinuation_of_preliminary {value text : String}
    (h : ofValue? value = some (.preliminary text)) : Node.isContinuation (some text) = false := by
  obtain ⟨rest, line, hline, hbuilt⟩ := exists_of_withText? (form_of_ofValue? h)
  obtain rfl : text = String.ofList line := Directive.preliminary.inj hbuilt
  refine isContinuation_of_head? ?_
  rw [String.toList_ofList]
  exact fun hhead => absurd (isBlank_of_head?_tail? hline hhead) (by decide)

/-! ## Switches of styles -/

/-- The code of a switch has a letter, and no blanks. -/
theorem code_of_ofValue? {value code : String} {temporary : Bool}
    (h : ofValue? value = some (.format temporary code)) :
    code.toList ≠ [] ∧ ∀ letter ∈ code.toList, isBlank letter = false := by
  obtain ⟨_, rest, word, hwords, hcode⟩ := exists_of_format? (form_of_ofValue? h)
  obtain ⟨-, rfl⟩ := Directive.format.inj hcode
  rw [String.toList_ofList]
  unfold words? at hwords
  split at hwords
  · have hmem : word ∈ words rest := by
      rw [Option.some.inj hwords]
      exact List.mem_singleton_self _
    exact of_mem_wordsBy hmem
  · simp at hwords

/-! ## Lines -/

/-- A line has no line feed. -/
theorem feed_not_mem_of_line? {s line : List Char} (h : line? s = some line) : '\n' ∉ line := by
  intro hfeed
  unfold line? at h
  dsimp only at h
  split at h
  · rw [← Option.some.inj h] at hfeed
    exact absurd (List.mem_takeWhile_imp hfeed) (by decide)
  · exact absurd h (by simp)

/-- So no text has one, whatever the value looks like. -/
theorem feed_not_mem_of_tail? {rest text : List Char} (h : tail? rest = some text) :
    '\n' ∉ text := by
  unfold tail? at h
  split at h
  · rw [← Option.some.inj h]
    exact List.not_mem_nil
  · split at h
    · exact feed_not_mem_of_line? h
    · exact absurd h (by simp)

/-- The text that a directive was given, if it takes one that is set or commented out. -/
def text? : Directive → Option String
  | .verbatim text | .comment text | .preliminary text => some text
  | _ => none

theorem feed_not_mem_of_text? {value text : String} (h : ofValue? value = some directive)
    (htext : directive.text? = some text) : '\n' ∉ text.toList := by
  have hform := form_of_ofValue? h
  cases directive with
  | verbatim own | comment own | preliminary own =>
    obtain ⟨rest, line, hline, hbuilt⟩ := exists_of_withText? hform
    simp only [Directive.verbatim.injEq, Directive.comment.injEq, Directive.preliminary.injEq]
      at hbuilt
    rw [← Option.some.inj htext, hbuilt, String.toList_ofList]
    exact feed_not_mem_of_tail? hline
  | _ => exact absurd htext (by simp [text?])

/-! ## Parts of the preamble -/

/-- A text without a line feed is a line. -/
theorem line?_of_not_mem {s : List Char} (h : '\n' ∉ s) : line? s = some s := by
  have hall : ∀ c ∈ s, (c != '\n') = true := by
    intro c hc
    rw [bne_iff_ne]
    rintro rfl
    exact h hc
  rw [line?, List.takeWhile_eq_self_iff.mpr hall, List.dropWhile_eq_nil_iff.mpr hall]
  rfl

/-- Without line feeds, a text may stand behind a name if there is nothing, or a blank first. -/
theorem isSome_tail? {rest : List Char} (h : '\n' ∉ rest) :
    (tail? rest).isSome = isSpacedLine rest := by
  cases rest with
  | nil => rfl
  | cons c rest =>
    have hrest : '\n' ∉ rest := fun hc => h (List.mem_cons_of_mem c hc)
    have htrim : '\n' ∉ trimStart (c :: rest) :=
      fun hc => h ((List.dropWhile_suffix isBlank).subset hc)
    rw [tail?, isSpacedLine, line?_of_not_mem hrest, line?_of_not_mem htrim, startsBlank]
    cases isBlank c <;> rfl

/-- The two ways of finding parts of the preamble: by the form of a directive, and by what a part
contributes. They agree on values without a line feed. -/
theorem ofValue?_eq_preamble_iff {value : String} (h : '\n' ∉ value.toList) :
    ofValue? value = some .preamble ↔
      (documentClass? value.toList).isSome = true ∨
        ((after? "preamble" value.toList).bind tail?).isSome = true := by
  have htail : ((after? "preamble" value.toList).bind tail?).isSome =
      (after? "preamble" value.toList).any isSpacedLine := by
    cases hafter : after? "preamble" value.toList with
    | none => rfl
    | some rest => exact isSome_tail? fun hc => h ((suffix_of_after? hafter).subset hc)
  have hform : preamble? value.toList = some .preamble ↔
      (documentClass? value.toList).isSome = true ∨
        (after? "preamble" value.toList).any isSpacedLine = true := by
    unfold preamble?
    rw [or_comm, ← Bool.or_eq_true_iff]
    split <;> simp_all
  rw [htail, ← hform]
  exact ofValue?_eq_some_iff_form

/-! ## Inclusions -/

/-- An inclusion as it is written, with one space before each name. -/
def inclusionText (once : Bool) (names : List String) : String :=
  "!include" ++ (if once then "-" else "") ++ " " ++ " ".intercalate names

/-- A text behind blanks and without a line feed stands behind a name. -/
theorem tail?_of_startsBlank {rest : List Char} (hblank : startsBlank rest = true)
    (h : '\n' ∉ rest) : tail? rest = some (trimStart rest) := by
  have htrim : '\n' ∉ trimStart rest := fun hc => h ((List.dropWhile_suffix isBlank).subset hc)
  have hne : ¬ rest.isEmpty = true := by
    intro hempty
    rw [List.isEmpty_iff.mp hempty] at hblank
    exact absurd hblank Bool.false_ne_true
  rw [tail?, if_neg hne, if_pos hblank, line?_of_not_mem htrim]

/-- An inclusion of names without blanks is read as it is written. -/
theorem ofValue?_inclusionText (once : Bool) {names : List String}
    (h : ∀ name ∈ names, name.toList ≠ [] ∧ ∀ c ∈ name.toList, isBlank c = false) :
    ofValue? (inclusionText once names) = some (.inclusion once names) := by
  have hnames : ∀ name ∈ names.map String.toList, name ≠ [] ∧ ∀ c ∈ name, isBlank c = false := by
    intro name hname
    obtain ⟨text, htext, rfl⟩ := List.mem_map.mp hname
    exact h text htext
  let tail := ' ' :: [' '].intercalate (names.map String.toList)
  have hline : '\n' ∉ tail := by
    intro hmem
    rcases List.mem_cons.mp hmem with heq | hmem
    · exact absurd heq (by decide)
    rcases eq_space_or_mem_of_mem_intercalate hmem with heq | ⟨name, hname, hmem⟩
    · exact absurd heq (by decide)
    · exact absurd ((hnames name hname).2 _ hmem) (by decide)
  have hwords : (words (trimStart tail)).map String.ofList = names := by
    have hspace : trimStart tail = trimStart ([' '].intercalate (names.map String.toList)) :=
      List.dropWhile_cons_of_pos (by decide)
    rw [hspace, words_trimStart, words_intercalate hnames, List.map_map]
    simp
  have hform : inclusion? (inclusionText once names).toList = some (.inclusion once names) := by
    have htext : (inclusionText once names).toList =
        "!include".toList ++ (if once then ['-'] else []) ++ tail := by
      simp only [inclusionText, String.toList_append, String.toList_intercalate]
      cases once <;> simp [tail]
    have hafter : after? "include" (inclusionText once names).toList =
        some ((if once then ['-'] else []) ++ tail) := by
      rw [htext]
      rfl
    have htail : tail? tail = some (trimStart tail) := tail?_of_startsBlank rfl hline
    cases once with
    | false => simp [inclusion?, hafter, htail, hwords, tail]
    | true => simp [inclusion?, hafter, htail, hwords]
  exact ofValue?_eq_some_iff_form.mpr hform

end OutlineTex.Directive
