/-
Switches of styles as overlays.

A switch lays the styles of a code over a stack, from a depth down. Above that depth every style is
what it was, and from there on the styles are those of the code, counted from the depth of the
switch, however short the stack was. So a switch hides whatever an earlier one has changed at its
own depth or below, and behind it no trace of the earlier one is left: the stack is the very same as
if there had been the second switch only.

For that it is not enough that the two stacks agree on the style of every depth, because stacks of
different lengths may do that too. What a switch keeps is the list of styles above its depth, and
that list is the same before and after an earlier switch further down.
-/
import OutlineTex.Proofs.Style.Stack

set_option autoImplicit false

namespace OutlineTex.StyleStack

variable {stack below switched : StyleStack} {depth : Nat} {code : String} {failure : Failure}

/-! ## Switches -/

/-- A switch fails if and only if its code does, and with the failure of the code. -/
theorem update_eq_error_iff : stack.update depth code = .error failure ↔
    ofCode code = .error failure := by
  rw [update]
  cases ofCode code <;> simp [Except.map]

/-- A switch whose code spells a stack lays that stack over the other. -/
theorem update_of_ofCode (h : ofCode code = .ok below) :
    stack.update depth code = .ok (stack.overlay depth below) := by
  rw [update, h]
  rfl

theorem overlay_ne_nil (hbelow : below.styles ≠ []) : (stack.overlay depth below).styles ≠ [] :=
  List.append_ne_nil_of_right_ne_nil _ hbelow

/-! ## Switches above a switch -/

/-- A switch keeps the list of styles above every depth down to its own. The lists have one style
for each of these depths, so they are compared depth by depth. -/
theorem above_overlay (hstack : stack.styles ≠ []) (hbelow : below.styles ≠ []) {upper : Nat}
    (hle : upper ≤ depth) : (stack.overlay depth below).above upper = stack.above upper := by
  have hne : (stack.overlay depth below).styles ≠ [] := overlay_ne_nil hbelow
  refine List.ext_getElem? fun k => ?_
  rcases Nat.lt_or_ge k upper with hk | hk
  · rw [getElem?_above hne hk, getElem?_above hstack hk,
      styleAt?_overlay_of_lt hstack (Nat.lt_of_lt_of_le hk hle)]
  · rw [List.getElem?_eq_none (by rw [length_above hne]; exact hk),
      List.getElem?_eq_none (by rw [length_above hstack]; exact hk)]

/-- Behind a switch, one at the same depth or above leads to the same stack as without it. -/
theorem update_overlay (hstack : stack.styles ≠ []) (hbelow : below.styles ≠ []) {upper : Nat}
    (hle : upper ≤ depth) (code : String) :
    (stack.overlay depth below).update upper code = stack.update upper code := by
  have hover : (stack.overlay depth below).overlay upper = stack.overlay upper := by
    funext other
    rw [overlay, above_overlay hstack hbelow hle, overlay]
  rw [update, update, hover]

/-! ## The laws -/

/-- **Switches are overlays.** Take a code that spells styles, at least one, and a stack that has
styles. A switch to the code at any depth succeeds, and the stack behind it has a style for every
depth: above the switch the one that was there, and from the switch on that of the code, counted
from there. A further switch at the same depth or above comes to the same as if it had been the only
one. And a switch that fails does so because its code names a style that does not exist, and then it
fails alike on every stack and at every depth. -/
theorem update_overlays (code : String) :
    (∀ below, ofCode code = .ok below → below.styles ≠ [] →
      ∀ stack : StyleStack, stack.styles ≠ [] → ∀ depth, ∃ switched,
        stack.update depth code = .ok switched ∧
          (∀ k, ∃ style, switched.styleAt k = .ok style) ∧
          (∀ k < depth, switched.styleAt k = stack.styleAt k) ∧
          (∀ k ≥ depth, switched.styleAt k = below.styleAt (k - depth)) ∧
          ∀ upper ≤ depth, ∀ other, switched.update upper other = stack.update upper other) ∧
      ∀ (stack : StyleStack) (depth : Nat) (failure : Failure),
        stack.update depth code = .error failure →
          (∃ id ∈ Style.ids code, Style.find? id = none ∧ failure = .unknownStyle id) ∧
            ∀ (other : StyleStack) (upper : Nat), other.update upper code = .error failure := by
  refine ⟨?_, ?_⟩
  · intro below hcode hbelow stack hstack depth
    refine ⟨stack.overlay depth below, update_of_ofCode hcode, ?_, ?_, ?_, ?_⟩
    · exact exists_styleAt (overlay_ne_nil hbelow)
    · exact fun k hk => styleAt_overlay_of_lt hstack hk
    · exact fun k hk => styleAt_overlay_of_le (.inl hstack) hbelow hk
    · exact fun upper hle other => update_overlay hstack hbelow hle other
  · intro stack depth failure hfails
    have hcode : ofCode code = .error failure := update_eq_error_iff.mp hfails
    refine ⟨?_, fun other upper => update_eq_error_iff.mpr hcode⟩
    obtain ⟨id, hfirst, rfl⟩ := Option.map_eq_some_iff.mp (ofCode_eq_error_iff.mp hcode)
    exact ⟨id, List.mem_of_find?_eq_some hfirst, by simpa using List.find?_some hfirst, rfl⟩

/-- A switch three levels down on a stack of one style, and then one further up. -/
theorem update_overlays_further_up :
    let items : StyleStack := ⟨[Style.list "I" "itemize"]⟩
    ∃ below switched, ofCode "NE" = .ok below ∧ below.styles ≠ [] ∧ items.styles ≠ [] ∧
      items.update 3 "NE" = .ok switched ∧ switched.code = "IIINE" ∧
      switched.styleAt 2 = items.styleAt 2 ∧ switched.styleAt 7 = below.styleAt 4 ∧
      switched.update 2 "P" = items.update 2 "P" ∧
      items.update 3 "NX" = .error (.unknownStyle "X") ∧
      ∀ (other : StyleStack) (upper : Nat), other.update upper "NX" =
        .error (.unknownStyle "X") := by
  intro items
  have hcode : ofCode "NE" = .ok ⟨[{ id := "N" }, Style.list "E" "enumerate"]⟩ := rfl
  have hswitched : items.update 3 "NE" = .ok ⟨List.replicate 3 (Style.list "I" "itemize") ++
      [{ id := "N" }, Style.list "E" "enumerate"]⟩ := rfl
  have hfails : items.update 3 "NX" = .error (.unknownStyle "X") := rfl
  obtain ⟨switched, hok, -, habove, hbelow, hagain⟩ :=
    (update_overlays "NE").1 _ hcode (List.cons_ne_nil _ _) items (List.cons_ne_nil _ _) 3
  obtain ⟨-, halike⟩ := (update_overlays "NX").2 items 3 _ hfails
  have hspelled : switched.code = "IIINE" := by
    rw [← Except.ok.inj (hswitched.symm.trans hok)]
    rfl
  exact ⟨_, switched, hcode, List.cons_ne_nil _ _, List.cons_ne_nil _ _, hok, hspelled,
    habove 2 (by decide), hbelow 7 (by decide), hagain 2 (by decide) "P", hfails, halike⟩

end OutlineTex.StyleStack
