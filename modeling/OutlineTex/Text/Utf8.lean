/-
Reading bytes as UTF-8, strictly.

A sequence of bytes is text or it is not; there is no repair. The first fault is
reported by the bytes that it spoils: the lead byte together with the continuation
bytes that were still right, so that one, two or three bytes are named. The second byte
decides everything that is subtle. After `E0` and `F0` it has to be large enough that
no shorter form exists, after `ED` small enough that no surrogate arises, after `F4`
small enough that the code point exists; behind it every continuation byte is like any
other.
-/

set_option autoImplicit false

namespace OutlineTex.Text.Utf8

/-! ## Faults -/

/-- What is wrong with a sequence of bytes. -/
inductive Reason
  /-- A byte that begins no sequence. -/
  | start
  /-- A byte that does not continue the sequence begun before it. -/
  | continuation
  /-- The text ends within a sequence. -/
  | ending
deriving DecidableEq, Repr

/-- The first fault of a text: the bytes from `first` on, `count` of them, the value of
the first, and what is wrong. -/
structure Fault where
  first : Nat
  count : Nat
  byte : UInt8
  reason : Reason
deriving DecidableEq, Repr

/-- The reason in words. -/
def Reason.text : Reason → String
  | .start => "invalid start byte"
  | .continuation => "invalid continuation byte"
  | .ending => "unexpected end of data"

/-- A byte as two hexadecimal digits. -/
def hexByte (b : UInt8) : String :=
  String.ofList [Nat.digitChar (b.toNat / 16), Nat.digitChar (b.toNat % 16)]

/-- The fault in words, with its place in the file. A single byte is shown. -/
def Fault.message (f : Fault) : String :=
  let place :=
    if f.count = 1 then s!"byte 0x{hexByte f.byte} in position {f.first}"
    else s!"bytes in position {f.first}-{f.first + f.count - 1}"
  s!"'utf-8' codec can't decode {place}: {f.reason.text}"

/-! ## Decoding -/

/-- The least and the greatest second byte after a lead byte. -/
def secondRange (lead : UInt8) : UInt8 × UInt8 :=
  if lead == 0xE0 then (0xA0, 0xBF)
  else if lead == 0xED then (0x80, 0x9F)
  else if lead == 0xF0 then (0x90, 0xBF)
  else if lead == 0xF4 then (0x80, 0x8F)
  else (0x80, 0xBF)

/-- A byte that may follow the lead byte directly. -/
def isSecond (lead b : UInt8) : Bool :=
  (secondRange lead).1 ≤ b && b ≤ (secondRange lead).2

/-- A byte that may stand further behind. -/
def isContinuation (b : UInt8) : Bool :=
  0x80 ≤ b && b ≤ 0xBF

/-- The code point of a lead byte, which gives `bits`, and its continuation bytes, which
give six bits each. -/
def assemble (bits : Nat) (continuation : List UInt8) : Char :=
  Char.ofNat (continuation.foldl (fun n b => n * 64 + (b.toNat - 0x80)) bits)

/-- Decodes the bytes from position `pos` on behind the characters already read, the
last of them first. -/
def decodeFrom (pos : Nat) (read : List Char) : List UInt8 → Except Fault (List Char)
  | [] => .ok read.reverse
  | a :: rest =>
    if a < 0x80 then decodeFrom (pos + 1) (assemble a.toNat [] :: read) rest
    else if a < 0xC2 || 0xF5 ≤ a then .error ⟨pos, 1, a, .start⟩
    else match rest with
      | [] => .error ⟨pos, 1, a, .ending⟩
      | b :: rest =>
        if !isSecond a b then .error ⟨pos, 1, a, .continuation⟩
        else if a < 0xE0 then decodeFrom (pos + 2) (assemble (a.toNat - 0xC0) [b] :: read) rest
        else match rest with
          | [] => .error ⟨pos, 2, a, .ending⟩
          | c :: rest =>
            if !isContinuation c then .error ⟨pos, 2, a, .continuation⟩
            else if a < 0xF0 then
              decodeFrom (pos + 3) (assemble (a.toNat - 0xE0) [b, c] :: read) rest
            else match rest with
              | [] => .error ⟨pos, 3, a, .ending⟩
              | d :: rest =>
                if !isContinuation d then .error ⟨pos, 3, a, .continuation⟩
                else decodeFrom (pos + 4) (assemble (a.toNat - 0xF0) [b, c, d] :: read) rest

/-- The text that the bytes spell, or their first fault. -/
def decode (bytes : List UInt8) : Except Fault (List Char) :=
  decodeFrom 0 [] bytes

/-- The bytes that spell a text. -/
def encode (s : String) : List UInt8 :=
  s.toUTF8.toList

end OutlineTex.Text.Utf8
