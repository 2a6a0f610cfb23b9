import Std.Data.TreeMap

/-! The three numberings of an environment. A `RecordId` is the position of a record in the data of
the document and is all that the document has to name a type by; a `TypeId` is a position in the
arena of nodes, a `SignatureId` one in the arena of signatures. All three are words of 32 bits. -/

namespace TypeEnv

/-- Position of a record in the data of a document. -/
structure RecordId where
  val : UInt32
  deriving DecidableEq, Repr, Inhabited

/-- Handle of a node. -/
structure TypeId where
  val : UInt32
  deriving DecidableEq, Repr, Inhabited

/-- Handle of a signature. -/
structure SignatureId where
  val : UInt32
  deriving DecidableEq, Repr, Inhabited

/-- The number as a 32-bit word, if it is one. -/
def word? (n : Int) : Option UInt32 :=
  if 0 ≤ n ∧ n < 0x100000000 then some n.toNat.toUInt32 else none

/-! ### Order

Tables are kept in the order of the numbers; keys that compare equal are equal. -/

instance : Ord RecordId := ⟨compareOn RecordId.val⟩
instance : Ord TypeId := ⟨compareOn TypeId.val⟩
instance : Ord SignatureId := ⟨compareOn SignatureId.val⟩

instance : Std.TransOrd RecordId := inferInstanceAs (Std.TransCmp (compareOn RecordId.val))
instance : Std.TransOrd TypeId := inferInstanceAs (Std.TransCmp (compareOn TypeId.val))
instance : Std.TransOrd SignatureId := inferInstanceAs (Std.TransCmp (compareOn SignatureId.val))

instance : Std.LawfulEqOrd RecordId where
  eq_of_compare {a b} h := by
    cases a; cases b
    exact congrArg RecordId.mk (Std.LawfulEqOrd.eq_of_compare h)

instance : Std.LawfulEqOrd TypeId where
  eq_of_compare {a b} h := by
    cases a; cases b
    exact congrArg TypeId.mk (Std.LawfulEqOrd.eq_of_compare h)

instance : Std.LawfulEqOrd SignatureId where
  eq_of_compare {a b} h := by
    cases a; cases b
    exact congrArg SignatureId.mk (Std.LawfulEqOrd.eq_of_compare h)

end TypeEnv
