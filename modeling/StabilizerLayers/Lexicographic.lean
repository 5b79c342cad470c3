/-!
# Lexicographic order

Lists compared from the front: the first entries that differ decide, and a list
comes before its own continuations. Entries are compared by a Boolean test, so
the order of texts is that of their code points, and the order of lists of texts
is built from it in the same way.
-/

namespace StabilizerLayers

namespace Lexicographic

/-- The order of lists of numbers. -/
def numbersBefore (first second : List Nat) : Bool :=
  first.lex second fun one other => one < other

/-- The order of texts by code points. -/
def textBefore (first second : String) : Bool :=
  first.toList.lex second.toList fun one other => one.toNat < other.toNat

/-- The order of lists of texts. -/
def textsBefore (first second : List String) : Bool := first.lex second textBefore

end Lexicographic

end StabilizerLayers
