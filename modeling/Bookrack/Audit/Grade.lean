/-
The grades, verdicts and confidences of the metadata audits (`metadata/src/report.rs`,
`glean/src/audit/report.rs`): one scale for books and papers, ordered from `Missing` to `Strong`, and
what the signals ask of texts.
-/

import Bookrack.Base.Graded
import Bookrack.Base.Literal
import Bookrack.Normalize.Pipeline
import Mathlib.Order.Nat

namespace Bookrack.Audit

open Normalize (trim trimMatches)

/-! ### The scales -/

/-- `FieldGrade`, `PaperFieldGrade`. -/
inductive FieldGrade
  | missing
  | weak
  | medium
  | strong
  deriving DecidableEq, Repr

/-- `grade_rank`. -/
def FieldGrade.rank : FieldGrade → Nat
  | .missing => 0
  | .weak => 1
  | .medium => 2
  | .strong => 3

instance : Preorder FieldGrade := Preorder.lift FieldGrade.rank

instance : DecidableLE FieldGrade := fun one other => Nat.decLe one.rank other.rank

/-- `Verdict`, `PaperVerdict`. -/
inductive Verdict
  | clean
  | needsWork
  deriving DecidableEq, Repr

/-- `Confidence`, `PaperConfidence`. -/
inductive Confidence
  | low
  | medium
  | high
  deriving DecidableEq, Repr

def Confidence.rank : Confidence → Nat
  | .low => 0
  | .medium => 1
  | .high => 2

instance : LE Confidence := ⟨fun one other => one.rank ≤ other.rank⟩

instance : DecidableLE Confidence := fun one other => Nat.decLe one.rank other.rank

/-- `weaken`: one notch down, `Missing` is the floor. -/
def FieldGrade.weaken : FieldGrade → FieldGrade
  | .strong => .medium
  | .medium => .weak
  | .weak => .missing
  | .missing => .missing

/-- `strengthen`: one notch up, `Strong` is the ceiling. -/
def FieldGrade.strengthen : FieldGrade → FieldGrade
  | .missing => .weak
  | .weak => .medium
  | .medium => .strong
  | .strong => .strong

/-- The grade of `weaken_to`. -/
def FieldGrade.weakenTo (target grade : FieldGrade) : FieldGrade :=
  if target.rank < grade.rank then target else grade

theorem weaken_monotone : Monotone FieldGrade.weaken := by
  intro one other le
  cases one <;> cases other <;> first | decide | exact absurd le (by decide)

theorem weaken_le (grade : FieldGrade) : grade.weaken ≤ grade := by
  cases grade <;> decide

theorem strengthen_monotone : Monotone FieldGrade.strengthen := by
  intro one other le
  cases one <;> cases other <;> first | decide | exact absurd le (by decide)

theorem le_strengthen (grade : FieldGrade) : grade ≤ grade.strengthen := by
  cases grade <;> decide

theorem weakenTo_monotone (target : FieldGrade) : Monotone target.weakenTo := by
  intro one other le
  cases target <;> cases one <;> cases other <;> first | decide | exact absurd le (by decide)

theorem weakenTo_le (target grade : FieldGrade) : target.weakenTo grade ≤ grade := by
  cases target <;> cases grade <;> decide

theorem le_strong (grade : FieldGrade) : grade ≤ .strong := by
  cases grade <;> decide

theorem confidence_le_iff {one other : Confidence} :
    one ≤ other ↔ (other = .low → one = .low) ∧ (one = .high → other = .high) := by
  cases one <;> cases other <;> decide

/-! ### Texts -/

/-- What the audits take from Unicode. -/
structure UnicodeTables where
  toLowercase : List Char → List Char
  isAlphanumeric : Char → Bool
  isAlphabetic : Char → Bool
  isNumeric : Char → Bool
  isDigit : Char → Bool

/-- `to_ascii_lowercase`. -/
def toAsciiLowercase (text : List Char) : List Char := text.map Char.toLower

/-- `eq_ignore_ascii_case`. -/
def eqIgnoreAsciiCase (one other : List Char) : Bool := toAsciiLowercase one == toAsciiLowercase other

/-- `str::contains`. -/
def contains (text needle : List Char) : Bool := text.tails.any needle.isPrefixOf

/-- `str::parse::<i32>`. -/
def parseI32 (text : List Char) : Option Int :=
  (Literal.readSigned text).filter fun read => -2147483648 ≤ read && read ≤ 2147483647

/-- `char::is_ascii_alphabetic`. -/
def isAsciiAlphabetic (c : Char) : Bool := c.isAlpha

/-- A ratio in basis points as a float. -/
def ratioOf (basisPoints : Nat) : Float := basisPoints.toFloat / 10000

/-- `TextLayerQuality`. -/
inductive TextLayerQuality
  | bornDigital
  | usable
  | doubtful
  deriving DecidableEq, Repr

/-- `Provenance`, what the audits read of it. -/
structure Provenance where
  adapter : String
  textLayerQuality : TextLayerQuality

end Bookrack.Audit
