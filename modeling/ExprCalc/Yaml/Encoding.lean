import ExprCalc.Text.Basic

namespace ExprCalc.Yaml

def isAllowed (c : Char) : Bool :=
  let n := c.toNat
  n == 0x9 || n == 0xA || n == 0xD || (0x20 ≤ n && n ≤ 0x7E) || n == 0x85 ||
    (0xA0 ≤ n && n ≤ 0xFFFD) || 0x10000 ≤ n

inductive Encoding where
  | utf8
  | utf16 (littleEndian : Bool)

inductive Leading where
  | char (c : Char) (size : Nat)
  | cut
  | invalid

namespace Encoding

/-- The encoding that the first bytes announce, and the number of bytes they take for that. -/
def announced (document : Text) : Encoding × Nat :=
  match (document.take 3).map UInt8.toNat with
  | 0xFF :: 0xFE :: _ => (utf16 true, 2)
  | 0xFE :: 0xFF :: _ => (utf16 false, 2)
  | [0xEF, 0xBB, 0xBF] => (utf8, 3)
  | _ => (utf8, 0)

def unit (littleEndian : Bool) (a b : UInt8) : Nat :=
  if littleEndian then b.toNat * 256 + a.toNat else a.toNat * 256 + b.toNat

def leading (n size : Nat) : Leading :=
  if n.isValidChar ∧ isAllowed (Char.ofNat n) then .char (Char.ofNat n) size else .invalid

def first (e : Encoding) (lead : UInt8) (rest : Text) : Leading :=
  match e with
  | utf8 =>
    match Rune.form? lead with
    | none => .invalid
    | some form =>
      if (rest.take form.tails).length < form.tails then .cut
      else match Rune.decode? lead rest with
        | some (c, tails) => leading c.toNat (tails + 1)
        | none => .invalid
  | utf16 littleEndian =>
    match rest with
    | [] => .cut
    | b :: rest =>
      let high := unit littleEndian lead b
      if high / 1024 = 0x37 then .invalid
      else if high / 1024 = 0x36 then
        match rest with
        | a :: b :: _ =>
          let low := unit littleEndian a b
          if low / 1024 = 0x37 then leading (0x10000 + high % 1024 * 1024 + low % 1024) 4
          else .invalid
        | _ => .cut
      else leading high 2

/-- The characters of some bytes after `read`, and the bytes of a character that breaks off at the
end. -/
def characters? (e : Encoding) : (fuel : Nat) → (read : Array Char) → Text →
    Option (List Char × Text)
  | 0, read, left => some (read.toList, left)
  | _, read, [] => some (read.toList, [])
  | fuel + 1, read, b :: bs =>
    match e.first b bs with
    | .char c size => characters? e fuel (read.push c) (bs.drop (size - 1))
    | .cut => some (read.toList, b :: bs)
    | .invalid => none

def portionSize : Nat := 512

/-- The portions of some bytes, the first of them of the given size, and whether a fault follows
the last one. A character that is cut by the end of a portion belongs to the next. -/
def portions (e : Encoding) : (fuel : Nat) → (size : Nat) → Text → List (List Char) × Bool
  | 0, _, _ => ([], true)
  | fuel + 1, size, bytes =>
    let later := bytes.drop size
    match e.characters? size #[] (bytes.take size) with
    | none => ([], true)
    | some (cs, left) =>
      if later.isEmpty then ([cs], !left.isEmpty)
      else
        let (more, faulty) := portions e fuel portionSize (left ++ later)
        (cs :: more, faulty)

end Encoding

/-- The portions of a document, and whether a fault follows the last one. The mark of the encoding
is left out, but counts in the size of the first portion. -/
def portions (document : Text) : List (List Char) × Bool :=
  let (encoding, mark) := Encoding.announced document
  encoding.portions (document.length + 1) (Encoding.portionSize - mark) (document.drop mark)

end ExprCalc.Yaml
