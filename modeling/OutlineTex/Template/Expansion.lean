/-
Templates filled in: each placeholder replaced by a text of its value.

The values are given by name, and all of them together are the value that a placeholder
without a name shows. Such a placeholder can come only once, and only first: behind a
placeholder there is no value left, unless the next one names its own.

The pieces are filled in from left to right and the parts of a placeholder in the order
in which they are written, so the first mistake is the one reported.
-/
import OutlineTex.Template.Placeholder
import OutlineTex.Template.Value

set_option autoImplicit false

namespace OutlineTex.Template

open OutlineTex.Text

/-! ## Mistakes -/

/-- Why a template cannot be filled in. -/
inductive Fault
  | unknownName (name : String)
  | unclosedName
  | incomplete
  | widthTooBig
  | precisionTooBig
  | precisionTooLarge
  | measureNotWhole
  | noValueLeft
  | unsupported (conversion : Char) (position : Nat)
  | notNumber (conversion : Char) (kind : String)
  | notWhole (conversion : Char) (kind : String)
  | notReal (kind : String)
  | notCharacter
deriving DecidableEq, Repr

/-- The fault in words. -/
def Fault.message : Fault → String
  | .unknownName name => quoted name
  | .unclosedName => "incomplete format key"
  | .incomplete => "incomplete format"
  | .widthTooBig => "width too big"
  | .precisionTooBig => "precision too big"
  | .precisionTooLarge => "precision too large"
  | .measureNotWhole => "* wants int"
  | .noValueLeft => "not enough arguments for format string"
  | .unsupported conversion position =>
    let n := conversion.toNat
    let shown := if 31 ≤ n && n ≤ 126 then conversion else '?'
    let code := String.ofList (hexadecimal 1 n)
    s!"unsupported format character '{shown}' (0x{code}) at index {position}"
  | .notNumber conversion kind =>
    s!"%{conversion} format: a real number is required, not {kind}"
  | .notWhole conversion kind =>
    s!"%{conversion} format: an integer is required, not {kind}"
  | .notReal kind => s!"must be real number, not {kind}"
  | .notCharacter => "%c requires int or char"

/-! ## Zero

The only number among the values is zero, the number of a switch that is off. -/

/-- Zero as a whole number with at least `precision` digits. -/
def zeroDigits (precision : Option Nat) : List Char :=
  List.replicate (max 1 (precision.getD 1)) '0'

/-- The mark of the base that a conversion writes in. -/
def basePrefix (conversion : Char) : List Char :=
  if ['o', 'x', 'X'].contains conversion then ['0', conversion] else []

/-- Zero with as many places; a point without places only where it is asked for. -/
def zeroPlaces (point : Bool) (places : Nat) : List Char :=
  if places == 0 && !point then ['0'] else '0' :: '.' :: List.replicate places '0'

/-- Zero as a real number. The letters `e` and `f` ask for places, `g` for digits. -/
def zeroReal (point : Bool) (conversion : Char) (precision : Option Nat) : List Char :=
  let precision := precision.getD 6
  match conversion with
  | 'e' => zeroPlaces point precision ++ ['e', '+', '0', '0']
  | 'E' => zeroPlaces point precision ++ ['E', '+', '0', '0']
  | 'f' => zeroPlaces point precision
  | 'F' => zeroPlaces point precision
  | _ => if point then zeroPlaces true (precision - 1) else ['0']

/-! ## Layout -/

/-- How the text of a value is laid out. -/
structure Layout where
  leftAligned : Bool
  plus : Bool
  space : Bool
  alternate : Bool
  zeroFilled : Bool
  width : Nat
deriving DecidableEq, Repr

/-- The layout that signs and a width stand for. -/
def Layout.ofSigns (signs : List Char) (width : Option Nat) : Layout where
  leftAligned := signs.contains '-'
  plus := signs.contains '+'
  space := signs.contains ' '
  alternate := signs.contains '#'
  zeroFilled := signs.contains '0'
  width := width.getD 0

/-- A text filled up with spaces. -/
def Layout.fillText (layout : Layout) (s : List Char) : List Char :=
  let fill := List.replicate (layout.width - s.length) ' '
  if layout.leftAligned then s ++ fill else fill ++ s

/-- A number filled up, with its sign and the mark of its base in front. Zeros come
between the mark and the digits, spaces before the sign. -/
def Layout.fillNumber (layout : Layout) (mark digits : List Char) : List Char :=
  let sign := if layout.plus then ['+'] else if layout.space then [' '] else []
  let lead := sign ++ mark
  let zeros :=
    if layout.zeroFilled && !layout.leftAligned then
      List.replicate (layout.width - (lead ++ digits).length) '0'
    else []
  layout.fillText (lead ++ zeros ++ digits)

/-! ## Conversions -/

/-- The longest precision of a whole number. -/
def digitLimit : Nat := Nat.pow 2 31 - 4

/-- A text of a value, which may be cut by a precision. -/
def cut (precision : Option Nat) (s : String) : List Char :=
  match precision with
  | none => s.toList
  | some n => s.toList.take n

/-- A value as a whole number. -/
def writeWhole (layout : Layout) (precision : Option Nat) (conversion : Char) (value : Value)
    (otherwise : Fault) : Except Fault (List Char) :=
  if value != .off then .error otherwise
  else if digitLimit < precision.getD 0 then .error .precisionTooLarge
  else
    let mark := if layout.alternate then basePrefix conversion else []
    .ok (layout.fillNumber mark (zeroDigits precision))

/-- The text of a value that a conversion asks for. -/
def writeValue (layout : Layout) (precision : Option Nat) (conversion : Char) (position : Nat)
    (value : Value) : Except Fault (List Char) :=
  if conversion == 's' then .ok (layout.fillText (cut precision value.plain))
  else if conversion == 'r' then .ok (layout.fillText (cut precision value.literal))
  else if conversion == 'a' then
    let shown := String.ofList (Value.inAscii value.literal.toList)
    .ok (layout.fillText (cut precision shown))
  else if ['d', 'i', 'u'].contains conversion then
    writeWhole layout precision conversion value (.notNumber conversion value.kind)
  else if ['o', 'x', 'X'].contains conversion then
    writeWhole layout precision conversion value (.notWhole conversion value.kind)
  else if ['e', 'E', 'f', 'F', 'g', 'G'].contains conversion then
    if value != .off then .error (.notReal value.kind)
    else .ok (layout.fillNumber [] (zeroReal layout.alternate conversion precision))
  else if conversion == 'c' then
    if value != .off then .error .notCharacter else .ok (layout.fillText ['\x00'])
  else .error (.unsupported conversion position)

/-! ## Filling in -/

/-- The number that a measure stands for, and the value that is left. A measure that is
the value itself uses it up. -/
def measure (limit : Nat) (tooBig : Fault) (left : Option Value) :
    Measure → Except Fault (Option Nat × Option Value)
  | .none => .ok (none, left)
  | .number n => if limit < n then .error tooBig else .ok (some n, left)
  | .value =>
    match left with
    | none => .error .noValueLeft
    | some .off => .ok (some 0, none)
    | some _ => .error .measureNotWhole

/-- The value that a placeholder shows, if there is one. -/
def subjectValue (lookup : String → Option Value) (left : Option Value) :
    Subject → Except Fault (Option Value)
  | .next => .ok left
  | .unclosed => .error .unclosedName
  | .named name =>
    match lookup name with
    | none => .error (.unknownName name)
    | some value => .ok (some value)

/-- The text of a placeholder, given the value that is left. -/
def Placeholder.fillIn (lookup : String → Option Value) (left : Option Value)
    (placeholder : Placeholder) : Except Fault (List Char) := do
  let left ← subjectValue lookup left placeholder.subject
  let (width, left) ← measure (Nat.pow 2 63 - 1) .widthTooBig left placeholder.width
  let (precision, left) ← match placeholder.precision with
    | none => pure (none, left)
    | some written => do
      let (precision, left) ← measure (Nat.pow 2 31 - 1) .precisionTooBig left written
      pure (some (precision.getD 0), left)
  match placeholder.conversion, left with
  | none, _ => .error .incomplete
  | some _, none => .error .noValueLeft
  | some conversion, some value =>
    writeValue (.ofSigns placeholder.signs width) precision conversion placeholder.position value

/-- The text of pieces, given the value that is left for them. -/
def fillPieces (lookup : String → Option Value) (left : Option Value) :
    List Piece → Except Fault (List Char)
  | [] => .ok []
  | .char c :: rest => (fillPieces lookup left rest).map (c :: ·)
  | .placeholder placeholder :: rest => do
    let shown ← placeholder.fillIn lookup left
    (fillPieces lookup none rest).map (shown ++ ·)

/-- The template with its placeholders filled in from named values. -/
def fillIn (fields : List (String × Value)) (template : String) : Except Fault String :=
  (fillPieces (fun name => fields.lookup name) (some (Value.recordOf fields))
    (pieces template)).map String.ofList

end OutlineTex.Template
