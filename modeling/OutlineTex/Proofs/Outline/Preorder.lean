/-
What an outline is read as, in document order.

A forest is written down by listing its nodes as they stand in the document, each with its
depth, its value and its label. This file says what that list is for a forest that was read
from lines: the lines that are not blank, one entry each, and in front of a line that is
more than one level below the line before it an entry without a value for every level in
between. Nothing else is in it, so no line is lost and none is read twice.

The forest is grown along its last branch, and what a new line adds depends on nothing but
the length of that branch, the `spine` below. The invariant that carries the reading of a
whole outline is that the spine is one longer than the depth of the last line read.
-/
import Mathlib.Data.List.Induction
import OutlineTex.Outline

set_option autoImplicit false

namespace OutlineTex.Outline

open OutlineTex.Text

/-! ## Forests as lists -/

/-- A node as a list in document order shows it: its depth, its value and its label. -/
structure Entry where
  depth : Nat
  value : Option String
  source : String
deriving DecidableEq, Repr

/-- The node that an entry is about, with nothing below it. -/
def Entry.leaf (entry : Entry) : Node :=
  { value := entry.value, source := entry.source }

mutual

/-- The entries of a node at the given depth and of everything below it, in document
order. -/
def entries (level : Nat) : Node → List Entry
  | ⟨value, source, children⟩ => ⟨level, value, source⟩ :: entriesOf (level + 1) children

/-- The entries of nodes at the given depth and of everything below them, in document
order. -/
def entriesOf (level : Nat) : List Node → List Entry
  | [] => []
  | node :: rest => entries level node ++ entriesOf level rest

end

theorem entriesOf_append (level : Nat) (first second : List Node) :
    entriesOf level (first ++ second) = entriesOf level first ++ entriesOf level second := by
  induction first with
  | nil => rfl
  | cons node rest ih => rw [List.cons_append, entriesOf, entriesOf, ih, List.append_assoc]

theorem entriesOf_singleton (level : Nat) (node : Node) :
    entriesOf level [node] = entries level node := by
  rw [entriesOf, entriesOf, List.append_nil]

/-! ## The last branch -/

mutual

/-- The number of nodes on the last branch of a node, from the node itself down. -/
def spine : Node → Nat
  | ⟨_, _, children⟩ => spineOf children + 1

/-- The number of nodes on the last branch of a forest. -/
def spineOf : List Node → Nat
  | [] => 0
  | node :: rest => if rest.isEmpty then spine node else spineOf rest

end

theorem spineOf_nil : spineOf [] = 0 := by
  rw [spineOf]

theorem spineOf_singleton (node : Node) : spineOf [node] = spineOf node.children + 1 := by
  obtain ⟨value, source, children⟩ := node
  rw [spineOf, if_pos List.isEmpty_nil, spine]

theorem spineOf_concat (forest : List Node) (last : Node) :
    spineOf (forest ++ [last]) = spineOf last.children + 1 := by
  induction forest with
  | nil => rw [List.nil_append, spineOf_singleton]
  | cons node rest ih => rw [List.cons_append, spineOf, if_neg (by simp), ih]

theorem graft_zero (node : Node) (forest : List Node) :
    graft node 0 forest = forest ++ [node] := by
  rw [graft]

theorem graft_succ_nil (node : Node) (level : Nat) :
    graft node (level + 1) [] =
      [{ source := node.source, children := graft node level [] }] := by
  rw [graft, List.getLast?_nil]

theorem graft_succ_concat (node : Node) (level : Nat) (forest : List Node) (last : Node) :
    graft node (level + 1) (forest ++ [last]) =
      forest ++ [{ last with children := graft node level last.children }] := by
  rw [graft, List.getLast?_concat, List.dropLast_concat]

/-- After a leaf was added, the last branch ends at it. -/
theorem spineOf_graft (node : Node) (level : Nat) (forest : List Node) :
    spineOf (graft node level forest) = level + (spineOf node.children + 1) := by
  induction level generalizing forest with
  | zero => rw [graft_zero, spineOf_concat, Nat.zero_add]
  | succ level ih =>
    induction forest using List.reverseRecOn with
    | nil =>
      rw [graft_succ_nil, spineOf_singleton, ih]
      omega
    | append_singleton forest last _ =>
      rw [graft_succ_concat, spineOf_concat, ih]
      omega

/-! ## What a line adds -/

/-- Placeholders for the levels from `floor` to the one above `level`, in this order. -/
def bridge (source : String) (floor level : Nat) : List Entry :=
  (List.range' floor (level - floor)).map fun between => ⟨between, none, source⟩

theorem bridge_of_le (source : String) {floor level : Nat} (h : level ≤ floor) :
    bridge source floor level = [] := by
  rw [bridge, Nat.sub_eq_zero_of_le h, List.range'_zero, List.map_nil]

theorem bridge_of_lt (source : String) {floor level : Nat} (h : floor < level) :
    bridge source floor level = ⟨floor, none, source⟩ :: bridge source (floor + 1) level := by
  obtain ⟨gap, rfl⟩ : ∃ gap, level = floor + (gap + 1) := ⟨level - floor - 1, by omega⟩
  have hout : floor + (gap + 1) - floor = gap + 1 := by omega
  have hin : floor + (gap + 1) - (floor + 1) = gap := by omega
  rw [bridge, bridge, hout, hin, List.range'_succ, List.map_cons]

/-- A node that is added to a forest comes last, after placeholders for the levels that the
last branch does not reach. The induction is on the depth of the node, and its step is the
one step that the growing takes down the last branch. -/
theorem entriesOf_graft (node : Node) (level base : Nat) (forest : List Node) :
    entriesOf base (graft node level forest) =
      entriesOf base forest ++ bridge node.source (base + spineOf forest) (base + level)
        ++ entries (base + level) node := by
  induction level generalizing base forest with
  | zero =>
    rw [graft_zero, entriesOf_append, entriesOf_singleton, bridge_of_le _ (by omega),
      List.append_nil, Nat.add_zero]
  | succ level ih =>
    have hlevel : base + 1 + level = base + (level + 1) := by omega
    induction forest using List.reverseRecOn with
    | nil =>
      -- nothing to step to: the placeholder made here is the first of the bridge
      have hbelow := ih (base + 1) []
      rw [spineOf, Nat.add_zero, hlevel] at hbelow
      have hbridge := bridge_of_lt node.source (show base < base + (level + 1) by omega)
      rw [graft_succ_nil, entriesOf_singleton, entries, hbelow, spineOf, Nat.add_zero base, hbridge]
      simp only [entriesOf, List.nil_append, List.cons_append]
    | append_singleton forest last _ =>
      obtain ⟨value, source, children⟩ := last
      have hbelow := ih (base + 1) children
      have hspine : base + 1 + spineOf children = base + (spineOf children + 1) := by omega
      rw [hlevel, hspine] at hbelow
      rw [graft_succ_concat, entriesOf_append, entriesOf_append, entriesOf_singleton,
        entriesOf_singleton, entries, entries, hbelow, spineOf_concat]
      simp only [List.append_assoc, List.cons_append]

/-! ## Growing a forest from entries -/

/-- The forest with the nodes of the entries added one after the other. -/
def plant (forest : List Node) (added : List Entry) : List Node :=
  added.foldl (fun forest entry => graft entry.leaf entry.depth forest) forest

/-- The depth that needs no bridge after the given entries: one below the last of them, and
`floor` if there is none. -/
def nextFloor (floor : Nat) (before : List Entry) : Nat :=
  (before.getLast?.map (·.depth + 1)).getD floor

/-- The entries with placeholders in front of each for the levels between the entry before
it and its own. In front of the first, these are the levels from `floor` on. -/
def bridged (floor : Nat) : List Entry → List Entry
  | [] => []
  | entry :: rest =>
    bridge entry.source floor entry.depth ++ entry :: bridged (entry.depth + 1) rest

theorem plant_concat (forest : List Node) (added : List Entry) (entry : Entry) :
    plant forest (added ++ [entry]) = graft entry.leaf entry.depth (plant forest added) := by
  rw [plant, List.foldl_append, List.foldl_cons, List.foldl_nil, plant]

theorem nextFloor_concat (floor : Nat) (before : List Entry) (entry : Entry) :
    nextFloor floor (before ++ [entry]) = entry.depth + 1 := by
  rw [nextFloor, List.getLast?_concat, Option.map_some, Option.getD_some]

theorem nextFloor_cons (floor : Nat) (entry : Entry) (rest : List Entry) :
    nextFloor floor (entry :: rest) = nextFloor (entry.depth + 1) rest := by
  induction rest using List.reverseRecOn with
  | nil => rfl
  | append_singleton rest last _ => rw [← List.cons_append, nextFloor_concat, nextFloor_concat]

theorem bridged_append (floor : Nat) (before : List Entry) (entry : Entry) (behind : List Entry) :
    bridged floor (before ++ entry :: behind) =
      bridged floor before ++ bridge entry.source (nextFloor floor before) entry.depth
        ++ entry :: bridged (entry.depth + 1) behind := by
  induction before generalizing floor with
  | nil => rfl
  | cons first rest ih =>
    rw [List.cons_append, bridged, bridged, ih, nextFloor_cons]
    simp only [List.append_assoc, List.cons_append]

theorem bridged_concat (floor : Nat) (before : List Entry) (entry : Entry) :
    bridged floor (before ++ [entry]) =
      bridged floor before ++ bridge entry.source (nextFloor floor before) entry.depth
        ++ [entry] :=
  bridged_append floor before entry []

/-- The last branch of a planted forest ends at the last entry. -/
theorem spineOf_plant (added : List Entry) : spineOf (plant [] added) = nextFloor 0 added := by
  induction added using List.reverseRecOn with
  | nil => rfl
  | append_singleton added entry _ =>
    rw [plant_concat, spineOf_graft, nextFloor_concat]
    rfl

/-- A planted forest lists the entries it was planted from, bridged. -/
theorem entriesOf_plant (added : List Entry) :
    entriesOf 0 (plant [] added) = bridged 0 added := by
  induction added using List.reverseRecOn with
  | nil => rfl
  | append_singleton added entry ih =>
    rw [plant_concat, entriesOf_graft, ih, spineOf_plant, bridged_concat, Nat.zero_add,
      Nat.zero_add]
    rfl

/-! ## Reading lines -/

/-- The entry of a line with its number. A blank line has none. -/
def entryOfLine? (source : String) (line : List Char) (number : Nat) : Option Entry :=
  if trimEnd line = [] then none
  else some {
    depth := depth line
    value := some (String.ofList (content (trimEnd line)))
    source := label source number }

/-- The entries of the lines that are not blank. The blank ones are counted all the
same. -/
def lineEntries (source : String) (lines : List (List Char)) : List Entry :=
  (lines.zipIdx 1).filterMap fun (line, number) => entryOfLine? source line number

/-- Cutting the blanks off the end of a line that is not blank leaves its leading tabs. -/
theorem depth_trimEnd {line : List Char} (h : trimEnd line ≠ []) :
    depth (trimEnd line) = depth line := by
  induction line with
  | nil => rfl
  | cons c rest ih =>
    cases hrest : trimEnd rest with
    | nil =>
      -- only blanks follow `c`, so `c` is no blank and in particular no tab
      cases hblank : isBlank c with
      | true => exact absurd (by simp [trimEnd, hrest, hblank]) h
      | false =>
        have htab : (c == '\t') = false := by
          rw [beq_eq_false_iff_ne]
          rintro rfl
          exact absurd hblank (by decide)
        simp [trimEnd, hrest, hblank, depth, htab]
    | cons d kept =>
      have hcons : trimEnd (c :: rest) = c :: trimEnd rest := by simp [trimEnd, hrest]
      have htail := ih (by rw [hrest]; exact List.cons_ne_nil d kept)
      rw [depth, depth] at htail
      rw [hcons, depth, depth, List.takeWhile_cons, List.takeWhile_cons]
      by_cases hc : (c == '\t') = true
      · rw [if_pos hc, if_pos hc, List.length_cons, List.length_cons, htail]
      · rw [if_neg hc, if_neg hc]

/-- A line adds the node of its entry. -/
theorem addLine_eq (source : String) (forest : List Node) (line : List Char) (number : Nat) :
    addLine source forest line number = plant forest (entryOfLine? source line number).toList := by
  cases hline : trimEnd line with
  | nil => simp [addLine, entryOfLine?, hline, plant]
  | cons c rest =>
    have hne : trimEnd line ≠ [] := by rw [hline]; exact List.cons_ne_nil c rest
    rw [addLine, hline, entryOfLine?, if_neg hne, ← depth_trimEnd hne, hline]
    rfl

/-- The lines are read by planting their entries. -/
theorem parse_eq_plant (source : String) (lines : List (List Char)) :
    parse source lines = plant [] (lineEntries source lines) := by
  rw [parse, lineEntries]
  generalize ([] : List Node) = forest
  induction lines.zipIdx 1 generalizing forest with
  | nil => rfl
  | cons numbered rest ih =>
    obtain ⟨line, number⟩ := numbered
    rw [List.foldl_cons, ih]
    dsimp only
    rw [addLine_eq, List.filterMap_cons]
    cases entryOfLine? source line number <;> rfl

/-! ## Values -/

/-- The values of a forest are those of its entries. -/
theorem valuesOf_eq (level : Nat) (forest : List Node) :
    Node.valuesOf forest = (entriesOf level forest).filterMap (·.value) := by
  induction forest using Node.forest_induction generalizing level with
  | nil => rfl
  | cons value source children rest ihchildren ihrest =>
    rw [Node.valuesOf, Node.values, entriesOf, entries, ihchildren (level + 1), ihrest level]
    cases value <;> simp

theorem filterMap_value_bridge (source : String) (floor level : Nat) :
    (bridge source floor level).filterMap (·.value) = [] := by
  simp [bridge]

/-- A bridge has no values, so bridging entries adds none. -/
theorem filterMap_value_bridged (floor : Nat) (added : List Entry) :
    (bridged floor added).filterMap (·.value) = added.filterMap (·.value) := by
  induction added generalizing floor with
  | nil => rfl
  | cons entry rest ih =>
    rw [bridged, List.filterMap_append, filterMap_value_bridge, List.nil_append,
      List.filterMap_cons, List.filterMap_cons, ih]

/-- Every character of a value that was read stands in a line that was read. -/
theorem exists_line_of_mem_valuesOf {source : String} {lines : List (List Char)} {value : String}
    (h : value ∈ Node.valuesOf (parse source lines)) : ∃ line ∈ lines, value.toList ⊆ line := by
  rw [valuesOf_eq 0, parse_eq_plant, entriesOf_plant, filterMap_value_bridged] at h
  obtain ⟨entry, hentry, hvalue⟩ := List.mem_filterMap.mp h
  obtain ⟨⟨line, number⟩, hline, hread⟩ := List.mem_filterMap.mp hentry
  refine ⟨line, List.fst_mem_of_mem_zipIdx hline, ?_⟩
  by_cases hblank : trimEnd line = []
  · simp [entryOfLine?, hblank] at hread
  · simp only [entryOfLine?, if_neg hblank, Option.some.injEq] at hread
    rw [← hread] at hvalue
    rw [← Option.some.inj hvalue, String.toList_ofList]
    have hcontent : content (trimEnd line) ⊆ trimEnd line :=
      fun c hc => (List.mem_filter.mp hc).1
    exact List.Subset.trans hcontent (trimEnd_isPrefix line).subset

/-! ## The whole outline -/

/-- The number of placeholders of a forest. -/
def placeholders (forest : List Node) : Nat :=
  (entriesOf 0 forest).countP (·.value.isNone)

theorem placeholders_bridge (source : String) (floor level : Nat) :
    (bridge source floor level).countP (·.value.isNone) = level - floor := by
  have hall : ∀ entry ∈ bridge source floor level, entry.value.isNone = true := by
    intro entry hentry
    obtain ⟨between, -, rfl⟩ := List.mem_map.mp hentry
    rfl
  rw [List.countP_eq_length.mpr hall, bridge, List.length_map, List.length_range']

theorem lineEntries_concat (source : String) (lines : List (List Char)) (line : List Char) :
    lineEntries source (lines ++ [line]) =
      lineEntries source lines ++ (entryOfLine? source line (lines.length + 1)).toList := by
  rw [lineEntries, lineEntries, List.zipIdx_append, List.filterMap_append, Nat.add_comm]
  congr 1

/-- **The tree builder.** The forest of a list of lines, listed in document order with its
depths, is the entries of the lines that are not blank, each with the placeholders in front
that bridge its distance from the line before. One line more adds as many placeholders as it
skips levels: none if it is blank or does not go down by more than one. -/
theorem entriesOf_parse (source : String) (lines : List (List Char)) :
    entriesOf 0 (parse source lines) = bridged 0 (lineEntries source lines) ∧
      ∀ line, placeholders (parse source (lines ++ [line])) =
        placeholders (parse source lines) +
          if trimEnd line = [] then 0 else depth line - nextFloor 0 (lineEntries source lines) := by
  have hlisted : ∀ lines, entriesOf 0 (parse source lines) = bridged 0 (lineEntries source lines) :=
    fun lines => by rw [parse_eq_plant, entriesOf_plant]
  refine ⟨hlisted lines, fun line => ?_⟩
  rw [placeholders, placeholders, hlisted, hlisted, lineEntries_concat, entryOfLine?]
  by_cases hblank : trimEnd line = []
  · rw [if_pos hblank, if_pos hblank, Option.toList_none, List.append_nil, Nat.add_zero]
  · rw [if_neg hblank, if_neg hblank, Option.toList_some, bridged_concat, List.countP_append,
      List.countP_append, placeholders_bridge]
    rfl

/-- Two levels are skipped at the start and one after it; a dedent and a blank line skip
none. -/
example :
    parse "a" [['\t', '\t', 'x'], [' '], ['\t', 'y'], ['\t', '\t', '\t', 'z']] =
      [{ source := "a:1", children := [
        { source := "a:1", children := [{ value := some "x", source := "a:1" }] },
        { value := some "y", source := "a:3", children := [
          { source := "a:4", children := [{ value := some "z", source := "a:4" }] }] }] }] := by
  rfl

end OutlineTex.Outline
