import TypeEnv.Record.Reader
import TypeEnv.Proofs.Reading

/-! Words of 32 bits, of which there are `0x100000000`, and the numbers they stand for. -/

namespace TypeEnv

/-- The errors that a value can be refused with before anything in it is looked up. -/
def LoadError.OfReading : LoadError → Prop
  | malformed .. | unknownKind .. => True
  | _ => False

theorem toNat_toUInt32 {n : Nat} (h : n < 0x100000000) : n.toUInt32.toNat = n :=
  UInt32.toNat_ofNat_of_lt' h

theorem TypeId.word_eq (t : TypeId) : (⟨t.val.toNat.toUInt32⟩ : TypeId) = t := by
  cases t
  simp

theorem SignatureId.word_eq (s : SignatureId) : (⟨s.val.toNat.toUInt32⟩ : SignatureId) = s := by
  cases s
  simp

theorem SignatureId.toNat_injective : Function.Injective fun s : SignatureId => s.val.toNat := by
  intro s s' h
  replace h : s.val.toNat = s'.val.toNat := h
  rw [← s.word_eq, h, s'.word_eq]

theorem TypeId.eq_of_toNat_eq {t u : TypeId} (h : t.val.toNat = u.val.toNat) : t = u := by
  rw [← t.word_eq, h, u.word_eq]

namespace RecordId

theorem word_eq (id : RecordId) : (⟨id.val.toNat.toUInt32⟩ : RecordId) = id := by
  cases id
  simp

/-- `n` is the number of `id`. -/
def NumberOf (n : Int) (id : RecordId) : Prop := ofInt? n = some id

variable {place : String} {n : Int} {id : RecordId}

theorem numberOf_iff : NumberOf n id ↔ n = (id.val.toNat : Int) := by
  rw [NumberOf, ofInt?, word?]
  constructor
  · intro h
    split at h
    · next hn =>
      obtain rfl := Option.some.inj h
      have hlt : n.toNat < 0x100000000 := by omega
      rw [toNat_toUInt32 hlt]
      omega
    · cases h
  · rintro rfl
    have hlt := id.val.toNat_lt
    rw [if_pos (by omega), Option.map_some, Int.toNat_natCast, word_eq]

theorem check_eq_ok : check place n = .ok id ↔ NumberOf n id := by
  rw [check, NumberOf]
  cases ofInt? n <;> simp

theorem check_failsWith (place : String) (n : Int) :
    Reading.FailsWith LoadError.OfReading (check place n) := by
  rw [check]
  split
  · exact .ok _
  · exact .error trivial

end RecordId

end TypeEnv
