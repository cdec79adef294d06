/-
The character that ends a text for the operating system.

No name of a file and no argument of a process can hold it. A text that does is refused
before the operating system is asked, so that it leads to no fault of the system.
-/

set_option autoImplicit false

namespace OutlineTex.Text

/-- The first of all characters. -/
def nul : Char := Char.ofNat 0

/-- Whether the operating system would take the text for a shorter one. -/
def hasNul (s : String) : Bool :=
  s.toList.contains nul

/-- What is said about a text that is refused. -/
def nulMessage : String := "embedded null byte"

end OutlineTex.Text
