/-
Forests that are read, and forests that are printed.

Printing a forest drops its placeholders, because a placeholder has no line. Reading puts
them back, and it can, because a forest that was read has them in one kind of place only:
as the first of its siblings, with something below it. Such a forest is called canonical
here, if moreover its values are texts that a line can have. The two halves of the argument
are that reading gives nothing but canonical forests, and that a canonical forest is what
reading makes of its print, but for the labels, which tell where a line came from.

Both halves go through `graft`. The first follows one added node down the last branch. The
second adds a whole node with what is below it: adding its line and then the lines below it
is adding the node, and where the node is a placeholder, adding the lines below it makes
it.
-/
import OutlineTex.Proofs.Outline.Preorder

set_option autoImplicit false

namespace OutlineTex.Outline

open OutlineTex.Text

/-! ## Forests without labels -/

mutual

/-- A node without its label, and so everything below it. -/
def unlabelled : Node → Node
  | ⟨value, _, children⟩ => { value, children := unlabelledOf children }

/-- Nodes without their labels, and so everything below them. -/
def unlabelledOf : List Node → List Node
  | [] => []
  | node :: rest => unlabelled node :: unlabelledOf rest

end

theorem unlabelled_eq (node : Node) :
    unlabelled node = { value := node.value, children := unlabelledOf node.children } := by
  obtain ⟨value, source, children⟩ := node
  rw [unlabelled]

theorem unlabelledOf_singleton (node : Node) : unlabelledOf [node] = [unlabelled node] := by
  rw [unlabelledOf, unlabelledOf]

theorem unlabelledOf_append (first second : List Node) :
    unlabelledOf (first ++ second) = unlabelledOf first ++ unlabelledOf second := by
  induction first with
  | nil => rfl
  | cons node rest ih => rw [List.cons_append, unlabelledOf, unlabelledOf, ih, List.cons_append]

/-- Where a node is added does not depend on labels. -/
theorem unlabelledOf_graft (node : Node) (level : Nat) (forest : List Node) :
    unlabelledOf (graft node level forest) =
      graft (unlabelled node) level (unlabelledOf forest) := by
  have hsource : (unlabelled node).source = "" := by rw [unlabelled_eq]
  induction level generalizing forest with
  | zero => rw [graft_zero, graft_zero, unlabelledOf_append, unlabelledOf_singleton]
  | succ level ih =>
    induction forest using List.reverseRecOn with
    | nil =>
      have hbelow := ih []
      rw [unlabelledOf] at hbelow
      rw [graft_succ_nil, unlabelledOf_singleton, unlabelled_eq, hbelow, unlabelledOf,
        graft_succ_nil, hsource]
    | append_singleton forest last _ =>
      have hbelow := ih last.children
      rw [graft_succ_concat, unlabelledOf_append, unlabelledOf_append, unlabelledOf_singleton,
        unlabelledOf_singleton, graft_succ_concat, unlabelled_eq last]
      rw [unlabelled_eq, hbelow]

/-- An entry without its label. -/
def Entry.unlabelled (entry : Entry) : Entry :=
  { entry with source := "" }

theorem unlabelledOf_plant (forest : List Node) (added : List Entry) :
    unlabelledOf (plant forest added) =
      plant (unlabelledOf forest) (added.map Entry.unlabelled) := by
  induction added using List.reverseRecOn with
  | nil => rfl
  | append_singleton added entry ih =>
    rw [plant_concat, unlabelledOf_graft, ih, List.map_append, List.map_singleton, plant_concat]
    rfl

/-! ## Canonical forests -/

/-- A text that the line of a node can have: it is not empty, no character of it is a tab,
and it does not end in a blank. -/
def isLineText (text : List Char) : Bool :=
  !text.isEmpty && !text.contains '\t' && !text.getLast?.any isBlank

mutual

/-- Whether a node is canonical. `first` tells whether it is the first of its siblings. -/
def isCanonicalNode (first : Bool) : Node → Bool
  | ⟨none, _, children⟩ => first && !children.isEmpty && isCanonicalFrom true children
  | ⟨some value, _, children⟩ => isLineText value.toList && isCanonicalFrom true children

/-- Whether siblings are canonical. `first` tells whether they are all siblings there are,
or only those behind the first. -/
def isCanonicalFrom (first : Bool) : List Node → Bool
  | [] => true
  | node :: rest => isCanonicalNode first node && isCanonicalFrom false rest

end

/-- A forest is canonical if its values are texts of lines, and if every placeholder is the
first of its siblings and has a child. -/
def IsCanonical (forest : List Node) : Prop :=
  isCanonicalFrom true forest = true

instance (forest : List Node) : Decidable (IsCanonical forest) :=
  inferInstanceAs (Decidable (_ = true))

/-! ## What is read is canonical -/

/-- A node that may stand anywhere among siblings may stand first. -/
theorem isCanonicalNode_of_false {node : Node} (first : Bool)
    (h : isCanonicalNode false node = true) : isCanonicalNode first node = true := by
  obtain ⟨value, source, children⟩ := node
  cases value with
  | none => simp [isCanonicalNode] at h
  | some value => simpa only [isCanonicalNode] using h

theorem isCanonicalFrom_children {first : Bool} {node : Node}
    (h : isCanonicalNode first node = true) : isCanonicalFrom true node.children = true := by
  obtain ⟨value, source, children⟩ := node
  cases value <;> simp only [isCanonicalNode, Bool.and_eq_true] at h <;> exact h.2

/-- What is below a canonical node may be replaced by any canonical forest but the empty
one. -/
theorem isCanonicalNode_withChildren {first : Bool} {node : Node} {children : List Node}
    (h : isCanonicalNode first node = true) (hchildren : isCanonicalFrom true children = true)
    (hne : children ≠ []) : isCanonicalNode first { node with children } = true := by
  obtain ⟨value, source, old⟩ := node
  cases value <;> simp only [isCanonicalNode, Bool.and_eq_true] at h ⊢
  · exact ⟨⟨h.1.1, by simpa using hne⟩, hchildren⟩
  · exact ⟨h.1, hchildren⟩

theorem isCanonicalFrom_concat (first : Bool) (forest : List Node) (last : Node) :
    isCanonicalFrom first (forest ++ [last]) =
      (isCanonicalFrom first forest && isCanonicalNode (first && forest.isEmpty) last) := by
  induction forest generalizing first with
  | nil => simp [isCanonicalFrom]
  | cons node rest ih => simp [isCanonicalFrom, ih, Bool.and_assoc]

theorem graft_ne_nil (node : Node) (level : Nat) (forest : List Node) :
    graft node level forest ≠ [] := by
  intro h
  have hspine := spineOf_graft node level forest
  rw [h, spineOf] at hspine
  omega

/-- Adding a node that may stand anywhere keeps a forest canonical. The induction is on the
depth of the node; a placeholder that is made on the way is the first of its siblings,
because there was nothing to step to. -/
theorem isCanonicalFrom_graft {node : Node} (hnode : isCanonicalNode false node = true)
    (level : Nat) (forest : List Node) (h : isCanonicalFrom true forest = true) :
    isCanonicalFrom true (graft node level forest) = true := by
  induction level generalizing forest with
  | zero =>
    rw [graft_zero, isCanonicalFrom_concat, h, Bool.true_and]
    exact isCanonicalNode_of_false _ hnode
  | succ level ih =>
    induction forest using List.reverseRecOn with
    | nil =>
      have hbelow := ih [] rfl
      have hne := graft_ne_nil node level []
      rw [graft_succ_nil, isCanonicalFrom, isCanonicalNode, hbelow]
      simp [isCanonicalFrom, hne]
    | append_singleton forest last _ =>
      rw [isCanonicalFrom_concat, Bool.and_eq_true] at h
      rw [graft_succ_concat, isCanonicalFrom_concat, h.1, Bool.true_and]
      exact isCanonicalNode_withChildren h.2 (ih last.children (isCanonicalFrom_children h.2))
        (graft_ne_nil node level last.children)

/-- What is left of a line without the blanks at its end does not end in a blank. -/
theorem isBlank_of_getLast?_trimEnd {line : List Char} {c : Char}
    (h : (trimEnd line).getLast? = some c) : isBlank c = false := by
  induction line with
  | nil => simp [trimEnd] at h
  | cons first rest ih =>
    cases hrest : trimEnd rest with
    | nil =>
      cases hfirst : isBlank first with
      | true => simp [trimEnd, hrest, hfirst] at h
      | false =>
        have hc : first = c := by simpa [trimEnd, hrest, hfirst] using h
        rw [← hc, hfirst]
    | cons d kept =>
      have hcons : trimEnd (first :: rest) = first :: d :: kept := by simp [trimEnd, hrest]
      rw [hcons, List.getLast?_cons_cons] at h
      exact ih (by rw [hrest, h])

/-- The text of a line that is not blank is a text of a line. -/
theorem isLineText_content {line : List Char} (h : trimEnd line ≠ []) :
    isLineText (content (trimEnd line)) = true := by
  obtain ⟨front, c, hline⟩ : ∃ front c, trimEnd line = front ++ [c] :=
    ⟨_, _, (List.dropLast_concat_getLast h).symm⟩
  have hblank : isBlank c = false :=
    isBlank_of_getLast?_trimEnd (by rw [hline, List.getLast?_concat])
  have htab : (c != '\t') = true := by
    rw [bne_iff_ne]
    rintro rfl
    exact absurd hblank (by decide)
  have hcontent : content (trimEnd line) = content front ++ [c] := by
    simp only [hline, content, List.filter_append, List.filter_cons, htab, if_true,
      List.filter_nil]
  have hno : '\t' ∉ content (trimEnd line) := by simp [content]
  simp only [isLineText, Bool.and_eq_true]
  refine ⟨⟨by simp [hcontent], by simpa using hno⟩, ?_⟩
  rw [hcontent, List.getLast?_concat, Option.any_some, hblank]
  rfl

/-- A forest planted from leaves that may stand anywhere is canonical. -/
theorem isCanonical_plant {added : List Entry}
    (hleaf : ∀ entry ∈ added, isCanonicalNode false entry.leaf = true) :
    IsCanonical (plant [] added) := by
  induction added using List.reverseRecOn with
  | nil => rfl
  | append_singleton before entry ih =>
    have hbefore := ih fun other hother => hleaf other (List.mem_append_left _ hother)
    rw [plant_concat]
    exact isCanonicalFrom_graft (hleaf entry (by simp)) _ _ hbefore

/-- The forest of any list of lines is canonical. -/
theorem isCanonical_parse (source : String) (lines : List (List Char)) :
    IsCanonical (parse source lines) := by
  rw [parse_eq_plant]
  refine isCanonical_plant fun entry hentry => ?_
  obtain ⟨⟨line, number⟩, -, hline⟩ := List.mem_filterMap.mp hentry
  by_cases hblank : trimEnd line = []
  · simp [entryOfLine?, hblank] at hline
  · simp only [entryOfLine?, if_neg hblank, Option.some.injEq] at hline
    subst hline
    simp [Entry.leaf, isCanonicalNode, isCanonicalFrom, isLineText_content hblank]

/-! ## Adding whole nodes -/

/-- Nodes added one after the other at the same depth. -/
def graftAll (level : Nat) (forest added : List Node) : List Node :=
  added.foldl (fun forest node => graft node level forest) forest

theorem graftAll_cons (level : Nat) (forest : List Node) (node : Node) (rest : List Node) :
    graftAll level forest (node :: rest) = graftAll level (graft node level forest) rest := by
  rw [graftAll, List.foldl_cons, graftAll]

/-- Adding at depth zero is appending. -/
theorem graftAll_zero (forest added : List Node) : graftAll 0 forest added = forest ++ added := by
  induction added generalizing forest with
  | nil => rw [graftAll, List.foldl_nil, List.append_nil]
  | cons node rest ih =>
    rw [graftAll_cons, ih, graft_zero, List.append_assoc, List.singleton_append]

/-- A node that is added one level below the last one becomes its last child. -/
theorem graft_graft (child node : Node) (level : Nat) (forest : List Node) :
    graft child (level + 1) (graft node level forest) =
      graft { node with children := node.children ++ [child] } level forest := by
  induction level generalizing forest with
  | zero => rw [graft_zero, graft_succ_concat, graft_zero, graft_zero]
  | succ level ih =>
    induction forest using List.reverseRecOn with
    | nil =>
      have hbelow := ih []
      rw [graft_succ_nil, graft_succ_nil, ← hbelow]
      exact graft_succ_concat child (level + 1) [] _
    | append_singleton forest last _ =>
      rw [graft_succ_concat, graft_succ_concat, graft_succ_concat, ih]

/-- Nodes that are added one level below the last one become its last children. -/
theorem graftAll_graft (children : List Node) (node : Node) (level : Nat) (forest : List Node) :
    graftAll (level + 1) (graft node level forest) children =
      graft { node with children := node.children ++ children } level forest := by
  induction children generalizing node with
  | nil =>
    obtain ⟨value, source, children⟩ := node
    rw [graftAll, List.foldl_nil, List.append_nil]
  | cons child rest ih =>
    rw [graftAll_cons, graft_graft, ih, List.append_assoc, List.singleton_append]

/-- A node that is added deeper than the last branch reaches gets a placeholder for its
parent. -/
theorem graft_of_spineOf_le (child : Node) {level : Nat} {forest : List Node}
    (h : spineOf forest ≤ level) :
    graft child (level + 1) forest =
      graft { source := child.source, children := [child] } level forest := by
  induction level generalizing forest with
  | zero =>
    induction forest using List.reverseRecOn with
    | nil => rw [graft_succ_nil, graft_zero, graft_zero, List.nil_append, List.nil_append]
    | append_singleton forest last _ =>
      rw [spineOf_concat] at h
      omega
  | succ level ih =>
    induction forest using List.reverseRecOn with
    | nil =>
      have hbelow := ih (show spineOf [] ≤ level by rw [spineOf]; omega)
      rw [graft_succ_nil, hbelow, graft_succ_nil]
    | append_singleton forest last _ =>
      rw [spineOf_concat] at h
      have hbelow := ih (show spineOf last.children ≤ level by omega)
      rw [graft_succ_concat, graft_succ_concat, hbelow]

/-- The entries that have a line. -/
def held (listed : List Entry) : List Entry :=
  listed.filter (·.value.isSome)

theorem plant_append (forest : List Node) (first second : List Entry) :
    plant forest (first ++ second) = plant (plant forest first) second := by
  rw [plant, List.foldl_append, plant, plant]

/-- Adding the entries of canonical siblings that have a line adds the siblings. If a
placeholder may be among them, the last branch must not reach deeper than they stand, so
that the placeholder is made again. Labels are left out, because a placeholder that is made
again has the label of the line that made it. -/
theorem plant_held (nodes : List Node) : ∀ (first : Bool) (level : Nat) (forest : List Node),
    isCanonicalFrom first nodes = true → (first = true → spineOf forest ≤ level) →
    plant forest (held (entriesOf level (unlabelledOf nodes))) =
      graftAll level forest (unlabelledOf nodes) := by
  induction nodes using Node.forest_induction with
  | nil => exact fun _ _ _ _ _ => rfl
  | cons value source children rest ihchildren ihrest =>
    intro first level forest hcanonical hspine
    simp only [isCanonicalFrom, Bool.and_eq_true] at hcanonical
    obtain ⟨hnode, hrest⟩ := hcanonical
    have hchildren := isCanonicalFrom_children hnode
    have hsiblings := fun forest => ihrest false level forest hrest (by simp)
    rw [unlabelledOf, unlabelled, entriesOf, entries, graftAll_cons, ← hsiblings]
    rw [held, List.cons_append, List.filter_cons, List.filter_append]
    cases value with
    | some value =>
      -- the line of the node is added first, and the branch ends at it
      have hbelow := ihchildren true (level + 1)
        (graft { value := some value } level forest) hchildren
        (fun _ => Nat.le_of_eq (by rw [spineOf_graft, spineOf]))
      rw [graftAll_graft, List.nil_append] at hbelow
      rw [if_pos Option.isSome_some, plant, List.foldl_cons, ← plant, plant_append, ← held,
        ← held]
      exact congrArg (plant · _) hbelow
    | none =>
      -- no line for the node itself: the first line below it makes it
      simp only [isCanonicalNode, Bool.and_eq_true, Bool.not_eq_true', List.isEmpty_eq_false_iff]
        at hnode
      obtain ⟨⟨hfirst, hne⟩, -⟩ := hnode
      obtain ⟨child, others, rfl⟩ := List.exists_cons_of_ne_nil hne
      have hle := hspine hfirst
      have hbelow := ihchildren true (level + 1) forest hchildren (fun _ => by omega)
      rw [unlabelledOf, graftAll_cons, graft_of_spineOf_le _ hle, graftAll_graft] at hbelow
      rw [if_neg (by simp), plant_append, ← held, ← held, unlabelledOf, hbelow,
        unlabelled_eq child]
      rfl

/-! ## Printing -/

/-- The line of a text at a depth. -/
def lineOf (level : Nat) (text : String) : List Char :=
  List.replicate level '\t' ++ text.toList

/-- The lines of a forest: one for every node with a value, in document order, indented by
its depth. -/
def print (forest : List Node) : List (List Char) :=
  (entriesOf 0 forest).filterMap fun entry => entry.value.map (lineOf entry.depth)

/-- A line that does not end in a blank has none to cut off. -/
theorem trimEnd_concat (front : List Char) {c : Char} (h : isBlank c = false) :
    trimEnd (front ++ [c]) = front ++ [c] := by
  induction front with
  | nil => simp [trimEnd, h]
  | cons d rest ih =>
    rw [List.cons_append, trimEnd, ih]
    cases rest <;> rfl

theorem depth_tabs_append (level : Nat) {text : List Char} (h : '\t' ∉ text) :
    depth (List.replicate level '\t' ++ text) = level := by
  have htext : text.takeWhile (· == '\t') = [] := by
    cases text with
    | nil => rfl
    | cons c rest =>
      have hc : c ≠ '\t' := fun hc => h (hc ▸ List.mem_cons_self)
      rw [List.takeWhile_cons_of_neg (by simpa using hc)]
  rw [depth, List.takeWhile_append_of_pos (by simp), htext, List.append_nil,
    List.length_replicate]

theorem content_tabs_append (level : Nat) {text : List Char} (h : '\t' ∉ text) :
    content (List.replicate level '\t' ++ text) = text := by
  have htext : text.filter (· != '\t') = text := by
    rw [List.filter_eq_self]
    intro c hc
    rw [bne_iff_ne]
    exact fun htab => h (htab ▸ hc)
  rw [content, List.filter_append, htext, List.filter_replicate, if_neg (by simp), List.nil_append]

/-- Reading the line of a text gives its depth and the text back. -/
theorem entryOfLine?_lineOf (source : String) (level number : Nat) {text : String}
    (h : isLineText text.toList = true) :
    entryOfLine? source (lineOf level text) number =
      some ⟨level, some text, label source number⟩ := by
  simp only [isLineText, Bool.and_eq_true, Bool.not_eq_true', List.isEmpty_eq_false_iff] at h
  obtain ⟨⟨hne, htab⟩, hend⟩ := h
  have hno : '\t' ∉ text.toList := by simpa using htab
  obtain ⟨front, c, htext⟩ : ∃ front c, text.toList = front ++ [c] :=
    ⟨_, _, (List.dropLast_concat_getLast hne).symm⟩
  have hblank : isBlank c = false := by simpa [htext] using hend
  have hline : trimEnd (lineOf level text) = lineOf level text := by
    rw [lineOf, htext, ← List.append_assoc, trimEnd_concat _ hblank]
  have hnonempty : lineOf level text ≠ [] := by
    rw [lineOf, htext]
    simp
  rw [entryOfLine?, hline, if_neg hnonempty, lineOf, depth_tabs_append level hno,
    content_tabs_append level hno, String.ofList_toList]

/-- The values of a canonical forest are texts of lines. -/
theorem isLineText_of_mem_entriesOf (forest : List Node) : ∀ (first : Bool) (level : Nat),
    isCanonicalFrom first forest = true → ∀ entry ∈ entriesOf level forest,
    ∀ text, entry.value = some text → isLineText text.toList = true := by
  induction forest using Node.forest_induction with
  | nil => intro _ _ _ entry hentry; simp [entriesOf] at hentry
  | cons value source children rest ihchildren ihrest =>
    intro first level h entry hentry text htext
    simp only [isCanonicalFrom, Bool.and_eq_true] at h
    obtain ⟨hnode, hrest⟩ := h
    rw [entriesOf, entries, List.cons_append, List.mem_cons, List.mem_append] at hentry
    rcases hentry with rfl | hbelow | hbeside
    · obtain rfl : value = some text := htext
      simp only [isCanonicalNode, Bool.and_eq_true] at hnode
      exact hnode.1
    · exact ihchildren true (level + 1) (isCanonicalFrom_children hnode) entry hbelow text htext
    · exact ihrest false level hrest entry hbeside text htext

theorem entriesOf_unlabelledOf (forest : List Node) : ∀ level : Nat,
    entriesOf level (unlabelledOf forest) = (entriesOf level forest).map Entry.unlabelled := by
  induction forest using Node.forest_induction with
  | nil => exact fun _ => rfl
  | cons value source children rest ihchildren ihrest =>
    intro level
    rw [unlabelledOf, unlabelled, entriesOf, entries, ihchildren, ihrest, entriesOf, entries,
      List.map_append, List.map_cons]
    rfl

/-- Reading the printed lines of entries, from any line number on, gives the entries that
have a line, but for their labels. -/
theorem read_printed (source : String) (listed : List Entry) (number : Nat)
    (h : ∀ entry ∈ listed, ∀ text, entry.value = some text → isLineText text.toList = true) :
    (((listed.filterMap fun entry => entry.value.map (lineOf entry.depth)).zipIdx number).filterMap
        fun (line, number) => entryOfLine? source line number).map Entry.unlabelled =
      held (listed.map Entry.unlabelled) := by
  induction listed generalizing number with
  | nil => rfl
  | cons entry rest ih =>
    obtain ⟨level, value, label⟩ := entry
    have hrest := fun number =>
      ih number fun other hother => h other (List.mem_cons_of_mem _ hother)
    cases value with
    | none => exact hrest number
    | some text =>
      have hread := entryOfLine?_lineOf source level number (h _ List.mem_cons_self text rfl)
      simp only [List.filterMap_cons, Option.map_some, List.zipIdx_cons, hread, List.map_cons,
        hrest]
      rfl

/-- A canonical forest is what its print is read as, but for the labels. -/
theorem unlabelledOf_parse_print {forest : List Node} (h : IsCanonical forest) (source : String) :
    unlabelledOf (parse source (print forest)) = unlabelledOf forest := by
  rw [parse_eq_plant, unlabelledOf_plant, lineEntries, print,
    read_printed source _ 1 (isLineText_of_mem_entriesOf forest true 0 h),
    ← entriesOf_unlabelledOf, unlabelledOf,
    plant_held forest true 0 [] h (fun _ => Nat.le_of_eq spineOf_nil), graftAll_zero,
    List.nil_append]

/-- **Reading undoes printing.** A canonical forest is what its print is read as, but for the
labels; whatever is read is a canonical forest; and so printing what was read and reading it
again changes nothing but labels. -/
theorem parse_print :
    (∀ (source : String) (forest : List Node), IsCanonical forest →
      unlabelledOf (parse source (print forest)) = unlabelledOf forest) ∧
    (∀ (source : String) (lines : List (List Char)), IsCanonical (parse source lines)) ∧
    ∀ (source again : String) (lines : List (List Char)),
      unlabelledOf (parse again (print (parse source lines))) =
        unlabelledOf (parse source lines) :=
  ⟨fun source _ h => unlabelledOf_parse_print h source, isCanonical_parse,
    fun source again lines => unlabelledOf_parse_print (isCanonical_parse source lines) again⟩

/-- A forest with two skipped levels at its start, and one below its first line. -/
def skipping : List Node :=
  [{ children := [
      { children := [{ value := some "a", children := [
        { children := [{ value := some " b c" }] }, { value := some "d" }] }] },
      { value := some "e" }] },
    { value := some "f" }]

theorem parse_print_skipping :
    IsCanonical skipping ∧ unlabelledOf (parse "" (print skipping)) = unlabelledOf skipping :=
  have hcanonical : IsCanonical skipping := by decide
  ⟨hcanonical, parse_print.1 "" skipping hcanonical⟩

end OutlineTex.Outline
