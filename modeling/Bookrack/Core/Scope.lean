/-
Content-stable logical addresses inside a book (`core/src/scope.rs`).
-/

namespace Bookrack

/-- `Scope`: a logical address inside one book's partition. -/
inductive Scope
  | book
  | work (signature : String)
  | node (hash : String)
  deriving DecidableEq, Repr

/-- `Display`. -/
def Scope.display : Scope → String
  | .book => "book"
  | .work signature => "work:" ++ signature
  | .node hash => "node:" ++ hash

end Bookrack
