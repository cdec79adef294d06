/-
The values that a template shows, and their texts.

A value has two texts. The plain one is the value as a reader of prose wants it; the
literal one shows it exactly, so texts are quoted in it, alone as well as inside a list
or a record. For all values but texts the two are the same.

A group of flags is shown by its kind and its address in memory. Which address that is
means nothing, so a fixed one stands for all.
-/
import OutlineTex.Text.Quoted

set_option autoImplicit false

namespace OutlineTex.Template

open OutlineTex.Text

/-- What a template can show. -/
inductive Value
  /-- Nothing is given. -/
  | absent
  /-- A switch that is off. As a number it is zero. -/
  | off
  /-- A text. -/
  | text (content : String)
  /-- Several texts. -/
  | texts (contents : List String)
  /-- A group of flags. -/
  | group
  /-- Names with the literals of their values. -/
  | record (fields : List (String × String))
deriving DecidableEq, Repr, Inhabited

namespace Value

/-- The name of a value's kind, for messages. -/
def kind : Value → String
  | absent => "NoneType"
  | off => "bool"
  | text _ => "str"
  | texts _ => "list"
  | group => "_ArgumentGroup"
  | record _ => "dict"

/-- The address that groups are shown with. -/
def address : String := "0x7f0000000000"

/-- The value as it is shown exactly. -/
def literal : Value → String
  | absent => "None"
  | off => "False"
  | text content => quoted content
  | texts contents => "[" ++ ", ".intercalate (contents.map quoted) ++ "]"
  | group => s!"<argparse.{group.kind} object at {address}>"
  | record fields =>
    "\x7b" ++ ", ".intercalate (fields.map fun (name, shown) => quoted name ++ ": " ++ shown)
      ++ "\x7d"

/-- The value as it is shown in prose. -/
def plain : Value → String
  | text content => content
  | value => value.literal

/-- A text with every character outside ASCII written by its code point. -/
def inAscii (s : List Char) : List Char :=
  s.flatMap fun c =>
    if c.toNat < 0x80 then [c]
    else if c.toNat < 0x100 then '\\' :: 'x' :: hexadecimal 2 c.toNat
    else if c.toNat < 0x10000 then '\\' :: 'u' :: hexadecimal 4 c.toNat
    else '\\' :: 'U' :: hexadecimal 8 c.toNat

/-- Values with their names as one value. -/
def recordOf (fields : List (String × Value)) : Value :=
  record (fields.map fun (name, value) => (name, value.literal))

end Value

end OutlineTex.Template
