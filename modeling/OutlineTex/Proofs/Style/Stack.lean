/-
Stacks of styles under a switch.

A stack has a style for every depth, although it is a finite list, because its last style
goes on for ever. A switch at a depth writes out the styles above that depth, and this file
shows that they are the styles that the depths above had before, however short the stack
was. What a code spells is counted in letters: each of them that is no blank spells one
style, so a code with such a letter never leads to a stack without styles.
-/
import OutlineTex.StyleStack

set_option autoImplicit false

namespace OutlineTex

open OutlineTex.Text

/-! ## What a code spells -/

/-- A code spells one id for every letter that is no blank. -/
theorem Style.length_idsFrom (before letters : List Char) :
    (idsFrom before letters).length = (letters.filter (!isBlank ·)).length := by
  induction letters generalizing before with
  | nil => rfl
  | cons letter rest ih =>
    rw [idsFrom]
    by_cases hblank : isBlank letter = true
    · rw [if_pos hblank, ih, List.filter_cons_of_neg (by simp [hblank])]
    · rw [if_neg hblank, List.filter_cons_of_pos (by simp [hblank]), List.length_cons, ih,
        List.length_cons]

namespace StyleStack

theorem length_of_ofIds {ids : List String} {styles : List Style} (h : ofIds ids = .ok styles) :
    styles.length = ids.length := by
  induction ids generalizing styles with
  | nil =>
    obtain rfl : [] = styles := Except.ok.inj h
    rfl
  | cons id rest ih =>
    rw [ofIds] at h
    cases hstyle : Style.find? id with
    | none => simp [hstyle] at h
    | some style =>
      cases hrest : ofIds rest with
      | error failure => simp [hstyle, hrest, Except.map] at h
      | ok below =>
        simp only [hstyle, hrest, Except.map, Except.ok.injEq] at h
        rw [← h, List.length_cons, ih hrest, List.length_cons]

/-- The stack that a code spells has a style for every letter of it that is no blank. -/
theorem length_of_ofCode {code : String} {stack : StyleStack} (h : ofCode code = .ok stack) :
    stack.styles.length = (code.toList.filter (!isBlank ·)).length := by
  rw [ofCode] at h
  cases hids : ofIds (Style.ids code) with
  | error failure => simp [hids, Except.map] at h
  | ok styles =>
    simp only [hids, Except.map, Except.ok.injEq] at h
    rw [← h, length_of_ofIds hids, Style.ids, Style.length_idsFrom]

/-- A code with a letter that is no blank spells a stack with a style. -/
theorem ne_nil_of_ofCode {code : String} {stack : StyleStack} (h : ofCode code = .ok stack)
    (hletter : ∃ letter ∈ code.toList, isBlank letter = false) : stack.styles ≠ [] := by
  obtain ⟨letter, hmem, hblank⟩ := hletter
  have hfilter : letter ∈ code.toList.filter (!isBlank ·) :=
    List.mem_filter.mpr ⟨hmem, by rw [hblank]; rfl⟩
  have hlength := List.length_pos_of_mem hfilter
  rw [← length_of_ofCode h] at hlength
  exact List.ne_nil_of_length_pos hlength

/-- What is wrong with a code: the first id that it spells and that is no style. -/
def fault? (code : String) : Option Failure :=
  ((Style.ids code).find? fun id => (Style.find? id).isNone).map .unknownStyle

/-- Ids are looked up one after the other, so the first that is no style decides. -/
theorem ofIds_eq (ids : List String) :
    (∀ id, ids.find? (fun id => (Style.find? id).isNone) = some id →
      ofIds ids = .error (.unknownStyle id)) ∧
    (ids.find? (fun id => (Style.find? id).isNone) = none → ∃ styles, ofIds ids = .ok styles) := by
  induction ids with
  | nil => exact ⟨fun id h => absurd h (by simp), fun _ => ⟨[], rfl⟩⟩
  | cons first rest ih =>
    rw [ofIds, List.find?_cons]
    cases hstyle : Style.find? first with
    | none =>
      refine ⟨fun id h => ?_, fun h => absurd h (by simp)⟩
      rw [Option.some.inj h]
    | some style =>
      refine ⟨fun id h => ?_, fun h => ?_⟩
      · rw [ih.1 id h]
        rfl
      · obtain ⟨styles, hrest⟩ := ih.2 h
        exact ⟨style :: styles, by rw [hrest]; rfl⟩

/-- A code with a fault fails with it. -/
theorem ofCode_of_fault? {code : String} {failure : Failure} (h : fault? code = some failure) :
    ofCode code = .error failure := by
  obtain ⟨id, hid, rfl⟩ := Option.map_eq_some_iff.mp h
  rw [ofCode, (ofIds_eq _).1 id hid]
  rfl

/-- A code without a fault spells a stack. -/
theorem exists_ofCode {code : String} (h : fault? code = none) :
    ∃ stack, ofCode code = .ok stack := by
  obtain ⟨styles, hstyles⟩ := (ofIds_eq _).2 (Option.map_eq_none_iff.mp h)
  exact ⟨⟨styles⟩, by rw [ofCode, hstyles]; rfl⟩

/-- A code fails if and only if it has a fault, and with that. -/
theorem ofCode_eq_error_iff {code : String} {failure : Failure} :
    ofCode code = .error failure ↔ fault? code = some failure := by
  refine ⟨fun h => ?_, ofCode_of_fault?⟩
  cases hfault : fault? code with
  | none =>
    obtain ⟨stack, hstack⟩ := exists_ofCode hfault
    exact absurd (hstack.symm.trans h) (by simp)
  | some other => rw [Except.error.inj ((ofCode_of_fault? hfault).symm.trans h)]

/-- A stack with a style has one for every depth. -/
theorem exists_styleAt {stack : StyleStack} (h : stack.styles ≠ []) (depth : Nat) :
    ∃ style, stack.styleAt depth = .ok style := by
  have hpos := List.length_pos_iff.mpr h
  have hlt : min depth (stack.styles.length - 1) < stack.styles.length := by omega
  rw [styleAt, styleAt?, List.getElem?_eq_getElem hlt]
  exact ⟨_, rfl⟩

/-! ## The depths above a switch -/

variable {stack below : StyleStack}

/-- The styles above a depth are as many as the depths above it. -/
theorem length_above (h : stack.styles ≠ []) (depth : Nat) :
    (stack.above depth).length = depth := by
  rw [above, List.getLast?_eq_some_getLast h, List.length_append, List.length_take,
    List.length_replicate]
  omega

/-- The styles above a depth are those of the depths above it. Behind the end of the stack
both are its last style. -/
theorem getElem?_above (h : stack.styles ≠ []) {k depth : Nat} (hk : k < depth) :
    (stack.above depth)[k]? = stack.styleAt? k := by
  have hpos := List.length_pos_iff.mpr h
  rw [above, List.getLast?_eq_some_getLast h, styleAt?]
  by_cases hlong : k < stack.styles.length
  · have hmin : min k (stack.styles.length - 1) = k := by omega
    rw [List.getElem?_append_left (by rw [List.length_take]; omega), List.getElem?_take_of_lt hk,
      hmin]
  · have hmin : min k (stack.styles.length - 1) = stack.styles.length - 1 := by omega
    rw [List.getElem?_append_right (by rw [List.length_take]; omega), List.getElem?_replicate,
      if_pos (by rw [List.length_take]; omega), hmin, ← List.getLast?_eq_getElem?,
      List.getLast?_eq_some_getLast h]

/-- A switch at a depth keeps the style of every depth above. -/
theorem styleAt?_overlay_of_lt (h : stack.styles ≠ []) {k depth : Nat} (hk : k < depth) :
    (stack.overlay depth below).styleAt? k = stack.styleAt? k := by
  have hlength := length_above h depth
  have hmin : min k ((stack.above depth ++ below.styles).length - 1) = k := by
    rw [List.length_append, hlength]
    omega
  rw [styleAt?, overlay, hmin, List.getElem?_append_left (by rw [hlength]; exact hk),
    getElem?_above h hk]

theorem styleAt_overlay_of_lt (h : stack.styles ≠ []) {k depth : Nat} (hk : k < depth) :
    (stack.overlay depth below).styleAt k = stack.styleAt k := by
  rw [styleAt, styleAt?_overlay_of_lt h hk, styleAt]

/-! ## The depth of a switch -/

/-- A stack that has a style for some depth is not empty. -/
theorem ne_nil_of_styleAt {depth : Nat} {style : Style} (h : stack.styleAt depth = .ok style) :
    stack.styles ≠ [] := by
  intro hempty
  rw [styleAt, styleAt?, hempty] at h
  exact absurd h (by simp)

/-- A switch at a depth brings its own styles there and further down, unless there are depths above
it and no styles for them. Far behind the end of both stacks it is the last style of its own. -/
theorem styleAt_overlay_of_le {k depth : Nat} (h : stack.styles ≠ [] ∨ depth = 0)
    (hbelow : below.styles ≠ []) (hk : depth ≤ k) :
    (stack.overlay depth below).styleAt k = below.styleAt (k - depth) := by
  have hlength : (stack.above depth).length = depth := by
    rcases h with h | rfl
    · exact length_above h depth
    · rw [above]
      split <;> simp
  have hpos := List.length_pos_iff.mpr hbelow
  have hmin : min k ((stack.above depth ++ below.styles).length - 1) =
      depth + min (k - depth) (below.styles.length - 1) := by
    rw [List.length_append, hlength]
    omega
  have hstyle : (stack.overlay depth below).styleAt? k = below.styleAt? (k - depth) := by
    rw [styleAt?, overlay, hmin, List.getElem?_append_right (by omega), hlength,
      Nat.add_sub_cancel_left, styleAt?]
  rw [styleAt, hstyle, styleAt]

theorem styleAt_overlay_self {depth : Nat} {first : Style} {rest : List Style}
    (h : stack.styles ≠ [] ∨ depth = 0) (hbelow : below.styles = first :: rest) :
    (stack.overlay depth below).styleAt depth = .ok first := by
  have hne : below.styles ≠ [] := by rw [hbelow]; exact List.cons_ne_nil first rest
  rw [styleAt_overlay_of_le h hne (Nat.le_refl depth), Nat.sub_self, styleAt, styleAt?, hbelow,
    Nat.zero_min]
  rfl

end StyleStack

end OutlineTex
