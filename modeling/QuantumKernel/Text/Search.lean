import Mathlib.Data.List.Infix
import QuantumKernel.Text.Basic
/-! # Search — texts in texts, counted in bytes

`find?` looks for the bytes of a pattern among the bytes of a text, `takeBytes?` cuts a text after a number of bytes.  A text
can be cut wherever a pattern was found: the first byte of a character is no later byte of another, so an occurrence among
the bytes is one among the characters (`isPrefix_drop_utf8_iff`).
-/
namespace QuantumKernel
namespace Text

/-- The first place, counted in bytes, where the bytes of a pattern stand in a text. -/
def find? (pattern t : Text) : Option Nat := t.utf8.tails.findIdx? pattern.utf8.isPrefixOf

/-- The part of a text that its first `n` bytes are; there is none if they end within a character or the text has fewer. -/
def takeBytes? : Text → Nat → Option Text
  | _, 0 => some []
  | [], _ + 1 => none
  | c :: t, n + 1 => if c.utf8Size ≤ n + 1 then (takeBytes? t (n + 1 - c.utf8Size)).map (c :: ·) else none

theorem utf8Length_eq_zero_iff {t : Text} : utf8Length t = 0 ↔ t = [] := by
  cases t with
  | nil => simp
  | cons c t =>
    have hc := c.utf8Size_pos
    rw [utf8Length_cons]
    constructor
    · omega
    · intro h
      cases h

theorem utf8Length_le_of_isPrefix {a t : Text} (h : a <+: t) : utf8Length a ≤ utf8Length t := by
  obtain ⟨b, rfl⟩ := h
  rw [utf8Length_append]
  exact Nat.le_add_right _ _

/-- **A text is cut where one of its beginnings ends.** -/
theorem takeBytes?_eq_some_iff : ∀ {t : Text} {n : Nat} {a : Text},
    takeBytes? t n = some a ↔ a <+: t ∧ utf8Length a = n
  | t, 0, a => by
    have : takeBytes? t 0 = some [] := by cases t <;> rfl
    rw [this, utf8Length_eq_zero_iff, Option.some.injEq]
    constructor
    · rintro rfl
      exact ⟨List.nil_prefix, rfl⟩
    · rintro ⟨-, rfl⟩
      rfl
  | [], n + 1, a => by
    simp only [takeBytes?, reduceCtorEq, List.prefix_nil, false_iff, not_and]
    rintro rfl
    simp
  | c :: t, n + 1, a => by
    unfold takeBytes?
    cases a with
    | nil => simp
    | cons d a =>
      rw [utf8Length_cons, List.cons_prefix_cons]
      split
      · rename_i hfits
        simp only [Option.map_eq_some_iff, takeBytes?_eq_some_iff, List.cons.injEq]
        constructor
        · rintro ⟨_, ⟨ha, hlen⟩, rfl, rfl⟩
          exact ⟨⟨rfl, ha⟩, by omega⟩
        · rintro ⟨⟨rfl, ha⟩, hlen⟩
          exact ⟨a, ⟨ha, by omega⟩, rfl, rfl⟩
      · rename_i hfits
        simp only [reduceCtorEq, false_iff]
        rintro ⟨⟨rfl, -⟩, hlen⟩
        omega

theorem utf8_of_takeBytes? {t a : Text} {n : Nat} (h : takeBytes? t n = some a) : utf8 a = (utf8 t).take n := by
  obtain ⟨⟨b, rfl⟩, rfl⟩ := takeBytes?_eq_some_iff.1 h
  rw [utf8_append, ← length_utf8, List.take_left]

/-- **A text is cut between its characters and nowhere else.** -/
theorem isSome_takeBytes?_iff {t : Text} {n : Nat} :
    (takeBytes? t n).isSome = true ↔ (⟨n⟩ : String.Pos.Raw).IsValid (String.ofList t) := by
  have hsize (a : Text) : (String.ofList a).utf8ByteSize = utf8Length a := by
    rw [← String.size_toByteArray, ← toByteArray_utf8, List.size_toByteArray, length_utf8]
  simp only [Option.isSome_iff_exists, takeBytes?_eq_some_iff, String.Pos.Raw.isValid_ofList, hsize]
  constructor
  · rintro ⟨a, ha, hlen⟩
    exact ⟨a.length, by rw [← List.prefix_iff_eq_take.1 ha, hlen]⟩
  · rintro ⟨i, hi⟩
    exact ⟨t.take i, List.take_prefix i t, hi.symm⟩

/-! ## Bytes and characters -/

/-- No character's bytes begin another's. -/
theorem eq_of_utf8EncodeChar_append {c d : Char} {x y : List UInt8}
    (h : String.utf8EncodeChar c ++ x = String.utf8EncodeChar d ++ y) : c = d := by
  have hread (e : Char) (z : List UInt8) : (String.utf8EncodeChar e ++ z).toByteArray.utf8DecodeChar? 0 = some e := by
    rw [List.toByteArray_append]
    exact ByteArray.utf8DecodeChar?_utf8EncodeChar_append
  exact Option.some.inj ((hread c x).symm.trans (h ▸ hread d y))

theorem utf8_isPrefix_iff : ∀ {p t : Text}, utf8 p <+: utf8 t ↔ p <+: t
  | [], t => by simp
  | c :: p, [] => by simp [String.utf8EncodeChar_ne_nil]
  | c :: p, d :: t => by
    rw [utf8_cons, utf8_cons, List.cons_prefix_cons]
    constructor
    · rintro ⟨rest, hrest⟩
      rw [List.append_assoc] at hrest
      obtain rfl := eq_of_utf8EncodeChar_append hrest
      exact ⟨rfl, utf8_isPrefix_iff.1 ⟨rest, List.append_cancel_left hrest⟩⟩
    · rintro ⟨rfl, h⟩
      exact (List.prefix_append_right_inj _).2 (utf8_isPrefix_iff.2 h)

/-- A pattern does not start within a character: no byte of a character but its first starts one. -/
theorem eq_zero_of_isPrefix_drop {d c : Char} {p t : Text} {i : Nat}
    (h : utf8 (d :: p) <+: (utf8 (c :: t)).drop i) (hi : i < c.utf8Size) : i = 0 := by
  have hd : 0 < (String.utf8EncodeChar d).length := by simpa using d.utf8Size_pos
  have hc : i < (String.utf8EncodeChar c).length := by simpa using hi
  have hfirst : (String.utf8EncodeChar d)[0].IsUTF8FirstByte := UInt8.isUTF8FirstByte_getElem_utf8EncodeChar.2 rfl
  have hbyte : (String.utf8EncodeChar d)[0] = (String.utf8EncodeChar c)[i] := by
    obtain ⟨rest, hrest⟩ := h
    have hhead := congrArg List.head? hrest
    rw [utf8_cons, utf8_cons, List.append_assoc, List.head?_drop, List.head?_eq_getElem?, List.getElem?_append_left hd,
      List.getElem?_append_left hc, List.getElem?_eq_getElem hd, List.getElem?_eq_getElem hc] at hhead
    exact Option.some.inj hhead
  rw [hbyte] at hfirst
  exact UInt8.isUTF8FirstByte_getElem_utf8EncodeChar.1 hfirst

theorem drop_utf8_cons {c : Char} {i : Nat} (h : c.utf8Size ≤ i) (t : Text) :
    (utf8 (c :: t)).drop i = (utf8 t).drop (i - c.utf8Size) := by
  have hlen : (String.utf8EncodeChar c).length ≤ i := by simpa using h
  rw [utf8_cons, List.drop_append, List.drop_eq_nil_of_le hlen, String.length_utf8EncodeChar, List.nil_append]

/-- **An occurrence among the bytes of a text is one among its characters.** -/
theorem isPrefix_drop_utf8_iff {p : Text} (hp : p ≠ []) : ∀ {t : Text} {i : Nat},
    utf8 p <+: (utf8 t).drop i ↔ ∃ a b, t = a ++ b ∧ utf8Length a = i ∧ p <+: b
  | t, 0 => by
    rw [List.drop_zero, utf8_isPrefix_iff]
    constructor
    · exact fun h => ⟨[], t, rfl, rfl, h⟩
    · rintro ⟨a, b, rfl, ha, h⟩
      rwa [utf8Length_eq_zero_iff.1 ha]
  | [], i + 1 => by
    have hne : utf8 p ≠ [] := fun h => hp (utf8_injective h)
    simp only [utf8_nil, List.drop_nil, List.prefix_nil, hne, false_iff]
    rintro ⟨a, b, hnil, ha, -⟩
    rw [(List.append_eq_nil_iff.1 hnil.symm).1] at ha
    cases ha
  | c :: t, i + 1 => by
    constructor
    · intro h
      obtain ⟨d, p, rfl⟩ := List.exists_cons_of_ne_nil hp
      have hi : c.utf8Size ≤ i + 1 := by
        by_contra hi
        cases eq_zero_of_isPrefix_drop h (Nat.lt_of_not_le hi)
      rw [drop_utf8_cons hi, isPrefix_drop_utf8_iff hp] at h
      obtain ⟨a, b, rfl, ha, h⟩ := h
      exact ⟨c :: a, b, rfl, by rw [utf8Length_cons]; omega, h⟩
    · rintro ⟨a, b, hab, ha, h⟩
      cases a with
      | nil => cases ha
      | cons d a =>
        obtain ⟨rfl, rfl⟩ := List.cons.inj hab
        rw [utf8Length_cons] at ha
        rw [drop_utf8_cons (by omega), isPrefix_drop_utf8_iff hp]
        exact ⟨a, b, rfl, by omega, h⟩

/-! ## The first occurrence -/

theorem find?_eq_some_iff {p t : Text} {i : Nat} :
    find? p t = some i ↔ utf8 p <+: (utf8 t).drop i ∧ ∀ j < i, ¬ utf8 p <+: (utf8 t).drop j := by
  unfold find?
  rw [List.findIdx?_eq_some_iff_getElem]
  simp only [List.getElem_tails, List.isPrefixOf_iff_prefix, List.length_tails, exists_prop]
  constructor
  · exact fun h => h.2
  · rintro ⟨h, hearlier⟩
    refine ⟨?_, h, hearlier⟩
    by_contra hi
    -- past the end nothing is left, as at the end
    rw [List.drop_eq_nil_of_le (by omega)] at h
    exact hearlier (utf8 t).length (by omega) (by rwa [List.drop_length])

theorem find?_eq_none_iff {p t : Text} : find? p t = none ↔ ∀ i, ¬ utf8 p <+: (utf8 t).drop i := by
  unfold find?
  simp only [List.findIdx?_eq_none_iff, List.mem_tails, ← Bool.not_eq_true, List.isPrefixOf_iff_prefix]
  constructor
  · exact fun h i => h _ (List.drop_suffix i _)
  · intro h s hs
    rw [List.suffix_iff_eq_drop.1 hs]
    exact h _

end Text
end QuantumKernel
