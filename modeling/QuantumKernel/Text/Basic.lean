/-! # Text — texts and their UTF-8 bytes

Sources, names, messages and log records are all texts: lists of characters.  A text is measured and ordered by its
UTF-8 bytes; `length_utf8` and `ofUtf8?_utf8` tie the byte count and the reader to the bytes.
-/
namespace QuantumKernel

abbrev Text := List Char

namespace Text

def utf8 (t : Text) : List UInt8 := t.flatMap String.utf8EncodeChar

/-- How many bytes the UTF-8 form of a text takes. -/
def utf8Length (t : Text) : Nat := t.foldr (fun c n => c.utf8Size + n) 0

/-- The text whose UTF-8 form the bytes are, if they are well formed. -/
def ofUtf8? (bytes : ByteArray) : Option Text := (String.fromUTF8? bytes).map String.toList

/-- Texts are ordered by their UTF-8 bytes. -/
def Before (a b : Text) : Prop := a.utf8 < b.utf8

instance (a b : Text) : Decidable (Before a b) := inferInstanceAs (Decidable (a.utf8 < b.utf8))

@[simp] theorem utf8_nil : utf8 [] = [] := rfl

@[simp] theorem utf8_cons (c : Char) (t : Text) : utf8 (c :: t) = String.utf8EncodeChar c ++ utf8 t := rfl

@[simp] theorem utf8_append (a b : Text) : utf8 (a ++ b) = utf8 a ++ utf8 b := List.flatMap_append

/-- **The byte count is the length of the bytes.** -/
theorem length_utf8 : ∀ t : Text, (utf8 t).length = utf8Length t
  | [] => rfl
  | c :: t => by rw [utf8_cons, List.length_append, length_utf8 t, String.length_utf8EncodeChar]; rfl

@[simp] theorem utf8Length_nil : utf8Length [] = 0 := rfl

@[simp] theorem utf8Length_cons (c : Char) (t : Text) : utf8Length (c :: t) = c.utf8Size + utf8Length t := rfl

@[simp] theorem utf8Length_append (a b : Text) : utf8Length (a ++ b) = utf8Length a + utf8Length b := by
  rw [← length_utf8, utf8_append, List.length_append, length_utf8, length_utf8]

theorem toByteArray_utf8 (t : Text) : (utf8 t).toByteArray = (String.ofList t).toByteArray := by
  simp [utf8, List.utf8Encode]

/-- **Reading a text's bytes gives the text back.** -/
theorem ofUtf8?_utf8 (t : Text) : ofUtf8? (utf8 t).toByteArray = some t := by
  simp only [ofUtf8?, toByteArray_utf8, String.fromUTF8?, dif_pos (String.ofList t).isValidUTF8]
  exact congrArg some String.toList_ofList

/-- **A text is read from its own bytes only.** -/
theorem ofUtf8?_eq_some_iff {bytes : ByteArray} {t : Text} : ofUtf8? bytes = some t ↔ bytes = t.utf8.toByteArray := by
  constructor
  · intro h
    simp only [ofUtf8?, String.fromUTF8?] at h
    split at h
    · cases h
      rw [toByteArray_utf8, String.ofList_toList]
      rfl
    · cases h
  · rintro rfl
    exact ofUtf8?_utf8 t

theorem utf8_injective {a b : Text} (h : a.utf8 = b.utf8) : a = b := by
  have hread : ofUtf8? (utf8 a).toByteArray = some b := by rw [h, ofUtf8?_utf8]
  exact Option.some.inj ((ofUtf8?_utf8 a).symm.trans hread)

namespace Before

theorem irrefl (a : Text) : ¬ Before a a := List.lt_irrefl a.utf8

theorem trans {a b c : Text} : Before a b → Before b c → Before a c := List.lt_trans

theorem asymm {a b : Text} : Before a b → ¬ Before b a := List.lt_asymm

theorem ne {a b : Text} (h : Before a b) : a ≠ b := fun hab => irrefl b (hab ▸ h)

/-- **Of two texts one comes before the other.** -/
theorem of_not {a b : Text} (hne : a ≠ b) (h : ¬ Before a b) : Before b a :=
  Decidable.byContradiction fun hba =>
    hne (utf8_injective (List.le_antisymm (List.not_lt.1 hba) (List.not_lt.1 h)))

end Before

end Text
end QuantumKernel
