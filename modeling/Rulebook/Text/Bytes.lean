/-! Text as bytes, and the lines of a file. -/

set_option autoImplicit false

namespace Rulebook

abbrev Bytes := List UInt8

namespace Bytes

def ofText (s : String) : Bytes := s.toByteArray.data.toList

def text? (bs : Bytes) : Option String := String.fromUTF8? ⟨bs.toArray⟩

def lineEnd : UInt8 := 10

/-- The pieces between line ends. A last line needs no line end. -/
def lines : Bytes → List Bytes
  | [] => []
  | b :: bs =>
    if b = lineEnd then [] :: lines bs
    else match lines bs with
      | [] => [[b]]
      | l :: ls => (b :: l) :: ls

def endsMidLine (bs : Bytes) : Bool :=
  match bs.getLast? with
  | some b => b != lineEnd
  | none => false

def mark : Char := '\ufffd'

/-- A character of which some bytes are read: how many are left, between which bounds the next one
is, and the bits so far. -/
structure Pending where
  left : Nat
  low : UInt8
  high : UInt8
  bits : Nat

def begin (b : UInt8) : List Char × Option Pending :=
  let bits := b.toNat
  if b < 0x80 then ([Char.ofNat bits], none)
  else if b < 0xC2 || 0xF4 < b then ([mark], none)
  else if b < 0xE0 then ([], some ⟨1, 0x80, 0xBF, bits % 32⟩)
  else if b < 0xF0 then
    let low := if b = 0xE0 then 0xA0 else 0x80
    let high := if b = 0xED then 0x9F else 0xBF
    ([], some ⟨2, low, high, bits % 16⟩)
  else
    let low := if b = 0xF0 then 0x90 else 0x80
    let high := if b = 0xF4 then 0x8F else 0xBF
    ([], some ⟨3, low, high, bits % 8⟩)

def step (p : Option Pending) (b : UInt8) : List Char × Option Pending :=
  match p with
  | none => begin b
  | some p =>
    if p.low ≤ b && b ≤ p.high then
      let bits := 64 * p.bits + b.toNat % 64
      if p.left ≤ 1 then ([Char.ofNat bits], none) else ([], some ⟨p.left - 1, 0x80, 0xBF, bits⟩)
    else
      let (cs, p) := begin b
      (mark :: cs, p)

def charsFrom (p : Option Pending) : Bytes → List Char
  | [] => if p.isSome then [mark] else []
  | b :: bs =>
    let (cs, p) := step p b
    cs ++ charsFrom p bs

def lossyText (bs : Bytes) : String := String.ofList (charsFrom none bs)

def orderMark : Bytes := [0xEF, 0xBB, 0xBF]

def dropOrderMark (bs : Bytes) : Bytes := if orderMark.isPrefixOf bs then bs.drop 3 else bs

theorem text?_ofText (s : String) : text? (ofText s) = some s := by
  have h : (⟨(ofText s).toArray⟩ : ByteArray) = s.toByteArray := by simp [ofText]
  simp only [text?, h, String.fromUTF8?]
  exact dif_pos s.isValidUTF8

end Bytes

end Rulebook
