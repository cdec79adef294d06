/-
Letters compared without regard to case, for names made of ASCII letters.

Case does not stop at ASCII. The long s is a lower-case form of S, and the dotted
capital I and the dotless small i both belong to the letter I, so each of them stands
for the plain letter wherever a name is read without regard to case. No other
character outside ASCII is a case form of a letter that the names use.
-/

set_option autoImplicit false

namespace OutlineTex.Text

/-- The plain lower-case letter that a character is a case form of. -/
def plainLetter (c : Char) : Char :=
  match c.toNat with
  | 0x17F => 's'
  | 0x130 => 'i'
  | 0x131 => 'i'
  | _ => c.toLower

/-- What follows a name at the head of a text, the name in lower case and the text in
any. -/
def afterName? : List Char → List Char → Option (List Char)
  | [], rest => some rest
  | _ :: _, [] => none
  | n :: name, c :: rest => if plainLetter c == n then afterName? name rest else none

/-- A name at the head of a text is a word of case forms of its letters. -/
theorem afterName?_eq_some_iff {name s rest : List Char} :
    afterName? name s = some rest ↔ ∃ word, s = word ++ rest ∧ word.map plainLetter = name := by
  induction name generalizing s with
  | nil =>
    constructor
    · intro h
      exact ⟨[], Option.some.inj h, rfl⟩
    · rintro ⟨word, rfl, hword⟩
      rw [List.map_eq_nil_iff.mp hword]
      rfl
  | cons n name ih =>
    constructor
    · intro h
      cases s with
      | nil => exact absurd h (by simp [afterName?])
      | cons c s =>
        rw [afterName?] at h
        split at h
        · next hc =>
          obtain ⟨word, rfl, hword⟩ := ih.mp h
          exact ⟨c :: word, rfl, by rw [List.map_cons, hword, beq_iff_eq.mp hc]⟩
        · exact absurd h (by simp)
    · rintro ⟨word, rfl, hword⟩
      obtain ⟨c, word, rfl, hc, hname⟩ := List.map_eq_cons_iff.mp hword
      rw [List.cons_append, afterName?, if_pos (beq_iff_eq.mpr hc)]
      exact ih.mpr ⟨word, rfl, hname⟩

/-- What follows a name stands at the end of the text. -/
theorem suffix_of_afterName? {name s rest : List Char} (h : afterName? name s = some rest) :
    rest <:+ s := by
  obtain ⟨word, rfl, -⟩ := afterName?_eq_some_iff.mp h
  exact List.suffix_append word rest

/-- Of two names at the head of one text, one begins with the other. -/
theorem prefix_of_afterName? {name other s rest behind : List Char}
    (h : afterName? name s = some rest) (hother : afterName? other s = some behind) :
    name <+: other ∨ other <+: name := by
  obtain ⟨word, rfl, rfl⟩ := afterName?_eq_some_iff.mp h
  obtain ⟨word', hs, rfl⟩ := afterName?_eq_some_iff.mp hother
  have hword : word <+: word ++ rest := List.prefix_append word rest
  have hword' : word' <+: word ++ rest := hs ▸ List.prefix_append word' behind
  exact (List.prefix_or_prefix_of_prefix hword hword').imp
    (fun h => h.map plainLetter) (fun h => h.map plainLetter)

/-- A name in two parts is read one part after the other. -/
theorem afterName?_append (name behind s : List Char) :
    afterName? (name ++ behind) s = (afterName? name s).bind (afterName? behind) := by
  induction name generalizing s with
  | nil => rfl
  | cons n name ih =>
    cases s with
    | nil => rfl
    | cons c s =>
      rw [List.cons_append, afterName?, afterName?]
      split
      · exact ih s
      · rfl

/-- A character that is not its own plain letter is a letter, and so is its plain letter. -/
theorem plainLetter_eq_self_or (c : Char) :
    plainLetter c = c ∨ 'A'.toNat ≤ c.toNat ∧ 'a'.toNat ≤ (plainLetter c).toNat := by
  unfold plainLetter
  split
  · next hc => exact .inr ⟨by rw [hc]; decide, by decide⟩
  · next hc => exact .inr ⟨by rw [hc]; decide, by decide⟩
  · next hc => exact .inr ⟨by rw [hc]; decide, by decide⟩
  · unfold Char.toLower
    split
    · next hupper =>
      have hfirst : 65 ≤ c.toNat := hupper.1
      have hlast : c.toNat ≤ 90 := hupper.2
      refine .inr ⟨hfirst, ?_⟩
      show 97 ≤ (c.val + 32).toNat
      have : c.val.toNat = c.toNat := rfl
      rw [UInt32.toNat_add, this]
      show 97 ≤ (c.toNat + 32) % 2 ^ 32
      omega
    · exact .inl rfl

/-- A character that is no letter is the only one that stands for itself. -/
theorem plainLetter_eq_iff {c d : Char} (hd : d.toNat < 'A'.toNat) :
    plainLetter c = d ↔ c = d := by
  have hsmall : d.toNat < 65 := hd
  rcases plainLetter_eq_self_or c with hself | ⟨hletter, hplain⟩
  · rw [hself]
  · have hfirst : 65 ≤ c.toNat := hletter
    have hlarge : 97 ≤ (plainLetter c).toNat := hplain
    constructor
    · intro h
      rw [h] at hlarge
      omega
    · rintro rfl
      omega

end OutlineTex.Text
