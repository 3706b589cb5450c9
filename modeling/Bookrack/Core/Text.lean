/-
What the ingest pipeline asks of text: whitespace, UTF-8 bytes, hexadecimal digests, character
counts, and slices at byte positions.
-/

import Mathlib.Algebra.Ring.Int.Defs
import Mathlib.Data.String.Basic

namespace Bookrack

/-- A statement about the characters of a list is decided over the list, not over every character. -/
instance (priority := 2000) decidableForallMem {P : Char → Prop} [DecidablePred P] (chars : List Char) :
    Decidable (∀ c ∈ chars, P c) := List.decidableBAll P chars

/-- `char::is_whitespace`: the Unicode property `White_Space`. -/
def isWhitespace (c : Char) : Bool :=
  let code := c.toNat
  (9 ≤ code && code ≤ 13) || code == 0x20 || code == 0x85 || code == 0xA0 || code == 0x1680 ||
    (0x2000 ≤ code && code ≤ 0x200A) || code == 0x2028 || code == 0x2029 || code == 0x202F ||
    code == 0x205F || code == 0x3000

/-- `str::as_bytes`. -/
def asBytes (text : String) : List UInt8 := text.toUTF8.toList

/-- `hex`: two lowercase digits a byte. -/
def hex (digest : List UInt8) : String :=
  String.ofList (digest.flatMap fun byte =>
    [Nat.digitChar (byte.toNat / 16), Nat.digitChar (byte.toNat % 16)])

/-! ### Counts and byte positions -/

/-- `as i32` of a count. -/
def asI32 (count : Nat) : Int := (count : Int).bmod (2 ^ 32)

theorem asI32_eq {count : Nat} (fits : count < 2 ^ 31) : asI32 count = count :=
  Int.bmod_eq_of_le (by omega) (by omega)

/-- `as usize` of an `i32`. -/
def asUsize (offset : Int) : Nat := (offset % 2 ^ 64).toNat

theorem asUsize_asI32 {count : Nat} (fits : count < 2 ^ 31) : asUsize (asI32 count) = count := by
  rw [asI32_eq fits, asUsize]
  omega

/-- The characters that fill exactly `bytes` bytes; `none` when the position is inside a character
or past the end. -/
def takeBytes : Nat → List Char → Option (List Char)
  | 0, _ => some []
  | _ + 1, [] => none
  | bytes + 1, c :: chars =>
    if c.utf8Size ≤ bytes + 1 then (takeBytes (bytes + 1 - c.utf8Size) chars).map (c :: ·)
    else none

theorem takeBytes_append (head rest : List Char) :
    takeBytes (String.utf8Len head) (head ++ rest) = some head := by
  induction head with
  | nil => cases rest <;> rfl
  | cons c head ih =>
    obtain ⟨bytes, isSucc⟩ : ∃ bytes, String.utf8Len (c :: head) = bytes + 1 :=
      ⟨_, (Nat.sub_add_cancel (Nat.le_add_left_of_le c.utf8Size_pos)).symm⟩
    have size : bytes + 1 = String.utf8Len head + c.utf8Size := by
      rw [← isSucc, String.utf8Len_cons]
    rw [isSucc, List.cons_append, takeBytes, if_pos (by omega), size, Nat.add_sub_cancel, ih]
    rfl

/-- `text[..bytes]`, which panics (`none`) off the character boundaries. -/
def sliceTo (text : String) (bytes : Nat) : Option String :=
  (takeBytes bytes text.toList).map String.ofList

theorem sliceTo_utf8Len {text : String} {head rest : List Char} (isText : text.toList = head ++ rest) :
    sliceTo text (String.utf8Len head) = some (String.ofList head) := by
  rw [sliceTo, isText, takeBytes_append]
  rfl

theorem utf8ByteSize_eq (text : String) : text.utf8ByteSize = String.utf8Len text.toList := by
  rw [← String.utf8ByteSize_ofList, String.ofList_toList]

end Bookrack
