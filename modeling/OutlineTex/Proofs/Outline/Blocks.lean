/-
Blocks of lines.

What is below a node stands in one block: the nodes that follow it in document order, up to the
first one that is no deeper than the node itself. That is so in every forest. In a forest that was
read, the block is one of lines: those behind the line of the node, up to the first one with no more
tabs than it has. Blank lines among them leave nothing behind, and neither do placeholders. These
belong to the block of the line that they are put in front of, because they are deeper than the node
wherever that line is, and they have no values.

A line that is not blank is found in the forest by its label, which is that of its own node and of
the placeholders in front of it, and of nothing else.
-/
import OutlineTex.Proofs.Outline.Preorder

set_option autoImplicit false

namespace OutlineTex.Outline

open OutlineTex.Text

/-! ## Nodes in document order -/

/-- A node with the depth at which it stands. -/
structure Placed where
  depth : Nat
  node : Node

/-- The entry of a node that stands at a depth. -/
def Placed.entry (placed : Placed) : Entry :=
  ⟨placed.depth, placed.node.value, placed.node.source⟩

mutual

/-- A node at the given depth and all nodes below it, in document order. -/
def placedAt (level : Nat) : Node → List Placed
  | ⟨value, source, children⟩ =>
    ⟨level, ⟨value, source, children⟩⟩ :: placedOf (level + 1) children

/-- Nodes at the given depth and all nodes below them, in document order. -/
def placedOf (level : Nat) : List Node → List Placed
  | [] => []
  | node :: rest => placedAt level node ++ placedOf level rest

end

theorem placedAt_eq (level : Nat) (node : Node) :
    placedAt level node = ⟨level, node⟩ :: placedOf (level + 1) node.children := by
  obtain ⟨value, source, children⟩ := node
  rw [placedAt]

theorem placedOf_append (level : Nat) (first second : List Node) :
    placedOf level (first ++ second) = placedOf level first ++ placedOf level second := by
  induction first with
  | nil => rfl
  | cons node rest ih => rw [List.cons_append, placedOf, placedOf, ih, List.append_assoc]

theorem map_entry_placedOf (level : Nat) (forest : List Node) :
    (placedOf level forest).map Placed.entry = entriesOf level forest := by
  induction forest using Node.forest_induction generalizing level with
  | nil => rfl
  | cons value source children rest ihchildren ihrest =>
    rw [placedOf, placedAt, entriesOf, entries, List.map_append, List.map_cons, ihchildren, ihrest]
    rfl

theorem le_depth_of_mem_entriesOf {level : Nat} {forest : List Node} {entry : Entry}
    (h : entry ∈ entriesOf level forest) : level ≤ entry.depth := by
  induction forest using Node.forest_induction generalizing level with
  | nil => exact absurd h List.not_mem_nil
  | cons value source children rest ihchildren ihrest =>
    rw [entriesOf, entries, List.cons_append] at h
    rcases List.mem_cons.mp h with rfl | h
    · exact Nat.le_refl _
    · rcases List.mem_append.mp h with h | h
      · exact Nat.le_of_succ_le (ihchildren h)
      · exact ihrest h

/-! ## Blocks of a forest -/

/-- The entries deeper than a level, up to the first that is not. -/
def block (level : Nat) (listed : List Entry) : List Entry :=
  listed.takeWhile (level < ·.depth)

/-- A block ends where an entry is no deeper than the level, and not before. -/
theorem block_append {level : Nat} {deeper behind : List Entry}
    (hdeeper : ∀ entry ∈ deeper, level < entry.depth)
    (hbehind : ∀ entry ∈ behind.head?, entry.depth ≤ level) :
    block level (deeper ++ behind) = deeper := by
  rw [block, List.takeWhile_append_of_pos fun entry hentry => decide_eq_true (hdeeper entry hentry)]
  cases behind with
  | nil => rw [List.takeWhile_nil, List.append_nil]
  | cons entry rest =>
    have hle : entry.depth ≤ level := hbehind entry rfl
    rw [List.takeWhile_cons_of_neg (by simpa using hle), List.append_nil]

/-- **What is below a node is a block.** Wherever a forest stands, what is listed below one of its
nodes is the block behind the node. The induction is on the forest; below a node, what comes behind
are its siblings. -/
theorem block_behind {level : Nat} {forest : List Node} {front back : List Placed} {here : Placed}
    (h : placedOf level forest = front ++ here :: back) (behind : List Entry)
    (hbehind : ∀ entry ∈ behind.head?, entry.depth ≤ level) :
    block here.depth (back.map Placed.entry ++ behind) =
      entriesOf (here.depth + 1) here.node.children := by
  induction forest using Node.forest_induction generalizing level front back behind with
  | nil => simp [placedOf] at h
  | cons value source children rest ihchildren ihrest =>
    -- behind the children stand the siblings of the node, which are no deeper
    have hsiblings : ∀ entry ∈ (entriesOf level rest ++ behind).head?, entry.depth ≤ level := by
      cases rest with
      | nil => exact hbehind
      | cons sibling rest =>
        obtain ⟨value, source, children⟩ := sibling
        rw [entriesOf, entries]
        rintro entry ⟨⟩
        exact Nat.le_refl level
    rw [placedOf, placedAt, List.cons_append] at h
    rcases List.cons_eq_append_iff.mp h with ⟨rfl, hhere⟩ | ⟨front, rfl, hfront⟩
    · -- the node itself: its children are the block, and its siblings end it
      obtain ⟨rfl, rfl⟩ := List.cons.inj hhere
      rw [List.map_append, map_entry_placedOf, map_entry_placedOf, List.append_assoc]
      exact block_append (fun entry hentry => le_depth_of_mem_entriesOf hentry) hsiblings
    · rcases List.append_eq_append_iff.mp hfront with
        ⟨middle, -, hrest⟩ | ⟨middle, hchildren, hback⟩
      · exact ihrest hrest behind hbehind
      · rcases List.cons_eq_append_iff.mp hback with ⟨-, hrest⟩ | ⟨back, rfl, rfl⟩
        · exact ihrest (show placedOf level rest = [] ++ here :: back from hrest) behind hbehind
        · -- a node below it: the siblings come behind what is left of the children
          rw [List.map_append, map_entry_placedOf, List.append_assoc]
          refine ihchildren hchildren _ fun entry hentry => ?_
          exact Nat.le_succ_of_le (hsiblings entry hentry)

/-! ## Blocks with placeholders -/

theorem le_depth_of_mem_bridge {source : String} {floor level : Nat} {entry : Entry}
    (h : entry ∈ bridge source floor level) : floor ≤ entry.depth := by
  obtain ⟨between, hbetween, rfl⟩ := List.mem_map.mp h
  exact (List.mem_range'_1.mp hbetween).1

/-- Placeholders that are deeper than a level end no block there, and they have no values. -/
theorem values_block_bridged {level floor : Nat} (hfloor : level < floor) (added : List Entry) :
    (block level (bridged floor added)).filterMap (·.value) =
      (block level added).filterMap (·.value) := by
  unfold block
  induction added generalizing floor with
  | nil => rfl
  | cons entry rest ih =>
    rw [bridged]
    -- the bridge itself ends no block, so the block ends here only if the entry ends it
    by_cases hdeeper : level < entry.depth
    · have hbridge : ∀ between ∈ bridge entry.source floor entry.depth,
          decide (level < between.depth) = true := fun between hbetween =>
        decide_eq_true (Nat.lt_of_lt_of_le hfloor (le_depth_of_mem_bridge hbetween))
      rw [List.takeWhile_append_of_pos hbridge, List.filterMap_append, filterMap_value_bridge,
        List.takeWhile_cons_of_pos (by simpa using hdeeper),
        List.takeWhile_cons_of_pos (by simpa using hdeeper), List.filterMap_cons,
        List.filterMap_cons, ih (Nat.lt_succ_of_lt hdeeper), List.nil_append]
    · rw [bridge_of_le _ (by omega), List.nil_append,
        List.takeWhile_cons_of_neg (by simpa using hdeeper),
        List.takeWhile_cons_of_neg (by simpa using hdeeper)]

/-- What has a value among bridged entries was there before. -/
theorem mem_of_mem_bridged {floor : Nat} {added : List Entry} {entry : Entry}
    (h : entry ∈ bridged floor added) (hvalue : entry.value ≠ none) : entry ∈ added := by
  induction added generalizing floor with
  | nil => exact absurd h List.not_mem_nil
  | cons first rest ih =>
    rcases List.mem_append.mp h with hbridge | hlisted
    · obtain ⟨between, -, rfl⟩ := List.mem_map.mp hbridge
      exact absurd rfl hvalue
    · rcases List.mem_cons.mp hlisted with rfl | hrest
      · exact List.mem_cons_self
      · exact List.mem_cons_of_mem first (ih hrest)

/-! ## Stretches of lines -/

/-- The text that a line gives its node. -/
def lineText (line : List Char) : String :=
  String.ofList (content (trimEnd line))

/-- The texts of the lines that begin with more tabs than a level, up to the first that does not.
Blank lines are passed over, whatever they begin with. -/
def stretch (level : Nat) (lines : List (List Char)) : List String :=
  ((lines.filter fun line => !(trimEnd line).isEmpty).takeWhile (level < depth ·)).map lineText

/-- The entries of the lines that are not blank, where the first line has the given number. -/
def entriesFrom (source : String) (number : Nat) (lines : List (List Char)) : List Entry :=
  (lines.zipIdx number).filterMap fun (line, number) => entryOfLine? source line number

theorem entriesFrom_cons (source : String) (number : Nat) (line : List Char)
    (rest : List (List Char)) : entriesFrom source number (line :: rest) =
      (entryOfLine? source line number).toList ++ entriesFrom source (number + 1) rest := by
  rw [entriesFrom, List.zipIdx_cons, List.filterMap_cons, entriesFrom]
  dsimp only
  cases entryOfLine? source line number <;> rfl

theorem entryOfLine?_of_ne (source : String) {line : List Char} (number : Nat)
    (h : trimEnd line ≠ []) : entryOfLine? source line number =
      some ⟨depth line, some (lineText line), label source number⟩ := by
  rw [entryOfLine?, if_neg h, lineText]

/-- The values of a block of lines are the texts of a stretch. -/
theorem values_block_entriesFrom (source : String) (level number : Nat)
    (lines : List (List Char)) :
    (block level (entriesFrom source number lines)).filterMap (·.value) = stretch level lines := by
  unfold block stretch
  induction lines generalizing number with
  | nil => rfl
  | cons line rest ih =>
    rw [entriesFrom_cons]
    by_cases hblank : trimEnd line = []
    · rw [entryOfLine?, if_pos hblank, Option.toList_none, List.nil_append, ih,
        List.filter_cons_of_neg (by simp [hblank])]
    · rw [entryOfLine?_of_ne _ _ hblank, Option.toList_some, List.singleton_append,
        List.filter_cons_of_pos (by simp [hblank])]
      by_cases hdeeper : level < depth line
      · rw [List.takeWhile_cons_of_pos (by simpa using hdeeper),
          List.takeWhile_cons_of_pos (by simpa using hdeeper), List.filterMap_cons, ih,
          List.map_cons]
      · rw [List.takeWhile_cons_of_neg (by simpa using hdeeper),
          List.takeWhile_cons_of_neg (by simpa using hdeeper)]
        rfl

/-! ## Labels -/

/-- Lines of one source are told apart by their labels. -/
theorem label_inj {source : String} {number other : Nat} :
    label source number = label source other ↔ number = other := by
  refine ⟨fun h => ?_, congrArg _⟩
  have hrepr : Nat.repr number = Nat.repr other := (String.append_right_inj _).mp h
  -- a number is read back from its digits
  have hdigits := congrArg (Nat.ofDigitChars 10 ·.toList 0) hrepr
  simpa [Nat.repr] using hdigits

theorem exists_label_of_mem {source : String} {number : Nat} {lines : List (List Char)}
    {entry : Entry} (h : entry ∈ entriesFrom source number lines) :
    ∃ other, number ≤ other ∧ other < number + lines.length ∧
      entry.source = label source other := by
  obtain ⟨⟨line, other⟩, hline, hentry⟩ := List.mem_filterMap.mp h
  obtain ⟨hle, hlt, -⟩ := List.mem_zipIdx hline
  refine ⟨other, hle, hlt, ?_⟩
  dsimp only [entryOfLine?] at hentry
  split at hentry
  · exact absurd hentry (by simp)
  · rw [← Option.some.inj hentry]

theorem lineEntries_append (source : String) (before : List (List Char)) {line : List Char}
    (after : List (List Char)) (h : trimEnd line ≠ []) :
    lineEntries source (before ++ line :: after) = lineEntries source before ++
      ⟨depth line, some (lineText line), label source (before.length + 1)⟩ ::
        entriesFrom source (before.length + 2) after := by
  have hbehind : entriesFrom source (1 + before.length) (line :: after) =
      ⟨depth line, some (lineText line), label source (before.length + 1)⟩ ::
        entriesFrom source (before.length + 2) after := by
    rw [Nat.add_comm, entriesFrom_cons, entryOfLine?_of_ne _ _ h]
    rfl
  rw [lineEntries, List.zipIdx_append, List.filterMap_append, ← hbehind]
  rfl

/-! ## The block of a line -/

/-- Whether a node is that of a line: it has the label of the line, as the placeholders in front of
it do, and a value. -/
def isOfLine (label : String) (node : Node) : Bool :=
  node.value.isSome && node.source == label

/-- Nodes whose values come from other lines are not of the line. -/
theorem filter_isOfLine_eq_nil {source : String} {number first : Nat} {lines : List (List Char)}
    {listed : List Placed}
    (hlisted : ∀ entry ∈ listed.map Placed.entry, entry.value ≠ none →
      entry ∈ entriesFrom source first lines)
    (hother : number < first ∨ first + lines.length ≤ number) :
    listed.filter (fun placed => isOfLine (label source number) placed.node) = [] := by
  refine List.filter_eq_nil_iff.mpr fun placed hplaced hisOfLine => ?_
  obtain ⟨hvalue, hsource⟩ := Bool.and_eq_true_iff.mp hisOfLine
  obtain ⟨other, hle, hlt, hlabel⟩ := exists_label_of_mem
    (hlisted placed.entry (List.mem_map_of_mem hplaced) (Option.isSome_iff_ne_none.mp hvalue))
  have hsame := label_inj.mp ((eq_of_beq hsource).symm.trans hlabel)
  omega

/-- The forest lists the node of a line between the nodes of the lines before it and those behind,
each with placeholders. -/
theorem exists_placed_of_line (source : String) (before : List (List Char)) {line : List Char}
    (after : List (List Char)) (h : trimEnd line ≠ []) :
    ∃ front node back, placedOf 0 (parse source (before ++ line :: after)) =
        front ++ ⟨depth line, node⟩ :: back ∧
      node.value = some (lineText line) ∧ node.source = label source (before.length + 1) ∧
      (∀ entry ∈ front.map Placed.entry, entry.value ≠ none →
        entry ∈ entriesFrom source 1 before) ∧
      back.map Placed.entry =
        bridged (depth line + 1) (entriesFrom source (before.length + 2) after) := by
  have hread : entriesOf 0 (parse source (before ++ line :: after)) =
      bridged 0 (lineEntries source (before ++ line :: after)) := by
    rw [parse_eq_plant, entriesOf_plant]
  rw [lineEntries_append source before after h, bridged_append, ← map_entry_placedOf] at hread
  obtain ⟨front, behind, hplaced, hfront, hbehind⟩ := List.map_eq_append_iff.mp hread
  obtain ⟨⟨level, node⟩, back, rfl, hhere, hback⟩ := List.map_eq_cons_iff.mp hbehind
  obtain ⟨rfl, hvalue, hsource⟩ := Entry.mk.inj hhere
  refine ⟨front, node, back, hplaced, hvalue, hsource, fun entry hentry hne => ?_, hback⟩
  rcases List.mem_append.mp (hfront ▸ hentry) with hentry | hbridge
  · exact mem_of_mem_bridged hentry hne
  · obtain ⟨between, -, rfl⟩ := List.mem_map.mp hbridge
    exact absurd rfl hne

/-- **The block of a line.** A line that is not blank has one node in the forest that is read. It
stands as deep as the line has tabs in front, it has the text of the line, and the values below it
are the texts of the lines behind, blank ones apart, up to the first that is no deeper. -/
theorem placed_of_line (source : String) (before : List (List Char)) {line : List Char}
    (after : List (List Char)) (h : trimEnd line ≠ []) :
    ∃ node : Node, node.value = some (lineText line) ∧
      node.valuesBelow = stretch (depth line) after ∧
      (placedOf 0 (parse source (before ++ line :: after))).filter
        (fun placed => isOfLine (label source (before.length + 1)) placed.node) =
          [⟨depth line, node⟩] := by
  obtain ⟨front, node, back, hplaced, hvalue, hsource, hfront, hback⟩ :=
    exists_placed_of_line source before after h
  have hown : isOfLine (label source (before.length + 1)) node = true := by
    rw [isOfLine, hvalue, hsource, Option.isSome_some, beq_self_eq_true, Bool.and_self]
  refine ⟨node, hvalue, ?_, ?_⟩
  · have hblock := block_behind hplaced [] (by simp)
    rw [List.append_nil, hback] at hblock
    rw [Node.valuesBelow, valuesOf_eq (depth line + 1), ← hblock,
      values_block_bridged (Nat.lt_succ_self _), values_block_entriesFrom]
  · -- the nodes before and behind have other labels, or they are placeholders
    rw [hplaced, List.filter_append, List.filter_cons_of_pos (by exact hown),
      filter_isOfLine_eq_nil hfront (.inr (Nat.le_of_eq (Nat.add_comm 1 before.length))),
      filter_isOfLine_eq_nil (fun entry hentry => mem_of_mem_bridged (hback ▸ hentry))
        (.inl (Nat.lt_succ_self _))]
    rfl

end OutlineTex.Outline
