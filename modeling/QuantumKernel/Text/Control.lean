import QuantumKernel.Text.Basic
/-! # Control — texts without control characters and control sequences

An escape character starts a sequence, which a terminal would obey and not show.  `plain` keeps of a text what is shown:
the characters outside sequences, less the control characters that are not white space.

White space inside an escape sequence or a control sequence is shown, and interrupts it.  What follows is shown as well,
until a character that is not shown takes the sequence up again, or one beyond ASCII gives it up.

`shown_plain` and `plain_eq_self_iff`: all that is kept is shown, and exactly the texts of which all is shown are kept.
-/
namespace QuantumKernel
namespace Text

/-- The control characters that are white space. -/
def isLayout (c : Char) : Bool := c == '\t' || c == '\n' || c == '\x0c' || c == '\r'

/-- Whether a code point lies between two others, both included. -/
def between (low high : Nat) (c : Char) : Bool := decide (low ≤ c.toNat) && decide (c.toNat ≤ high)

/-- Whether a character is shown outside sequences: all but the control characters of ASCII, of which white space is. -/
def isShown (c : Char) : Bool := (decide (0x20 ≤ c.toNat) && c != '\x7f') || isLayout c

/-- Where a text stands with respect to sequences. -/
inductive Control
  | outside
  | escape
  /-- In an escape sequence, after a space or a sign. -/
  | intermediate
  | sequence
  /-- In a device control string, before its parameters. -/
  | deviceStart
  /-- In a device control string, among its parameters. -/
  | deviceParameter
  /-- In a device control string, after a space or a sign. -/
  | deviceIntermediate
  /-- In the body of a device control string, or in another string that a terminator ends. -/
  | body
  /-- In a command to the operating system. -/
  | command
  deriving DecidableEq

namespace Control

/-- Where a text stands after a character that neither starts nor breaks off a sequence.  The string terminator counts
as a byte: any character with that byte in its UTF-8 form ends a body. -/
def advance (c : Char) : Control → Control
  | outside => outside
  | escape =>
    if between 0x20 0x2F c then intermediate
    else if c = '[' then sequence
    else if c = ']' then command
    else if c = 'P' then deviceStart
    else if c = 'X' ∨ c = '^' ∨ c = '_' then body
    else if between 0x30 0x7E c then outside
    else escape
  | intermediate => if between 0x30 0x7E c then outside else intermediate
  | sequence => if between 0x40 0x7E c then outside else sequence
  | deviceStart =>
    if between 0x20 0x2F c then deviceIntermediate
    else if between 0x30 0x3F c then deviceParameter
    else if between 0x40 0x7E c then body
    else deviceStart
  | deviceParameter =>
    if between 0x20 0x2F c then deviceIntermediate
    else if between 0x3C 0x7E c then body
    else deviceParameter
  | deviceIntermediate => if between 0x30 0x7E c then body else deviceIntermediate
  | body => if 0x9C ∈ String.utf8EncodeChar c then outside else body
  | command => if c = '\x07' then outside else command

/-- Where a text stands after a character.  An escape character starts a sequence, and two control characters break it
off, wherever they stand. -/
def next (c : Char) (s : Control) : Control :=
  if c = '\x1b' then escape
  else if c = '\x18' ∨ c = '\x1a' then outside
  else s.advance c

/-- Whether a character is shown where it stands: white space is, inside an escape sequence or a control sequence. -/
def shows (c : Char) : Control → Bool
  | outside => isShown c
  | escape | intermediate | sequence => isLayout c
  | _ => false

end Control

/-- What of a text is shown.  The sequence that it starts in may be interrupted. -/
def shownFrom : Control → (interrupted : Bool) → Text → Text
  | _, _, [] => []
  | s, true, c :: rest =>
    if isShown c then c :: (if c.toNat < 0x80 then shownFrom s true rest else shownFrom .outside false rest)
    else shownFrom (s.next c) false rest
  | s, false, c :: rest =>
    if s.shows c then c :: shownFrom (s.next c) (s != .outside) rest else shownFrom (s.next c) false rest

def plain (t : Text) : Text := shownFrom .outside false t

/-- Whether all of a text is shown. -/
def Shown (t : Text) : Prop := ∀ c ∈ t, isShown c = true

instance (t : Text) : Decidable (Shown t) := decidable_of_iff (t.all isShown = true) List.all_eq_true

@[simp] theorem shown_append {a b : Text} : Shown (a ++ b) ↔ Shown a ∧ Shown b := List.forall_mem_append

theorem Shown.of_subset {a b : Text} (hb : Shown b) (h : a ⊆ b) : Shown a := fun c hc => hb c (h hc)

theorem isShown_of_isLayout {c : Char} (h : isLayout c = true) : isShown c = true := by simp [isShown, h]

theorem Control.isShown_of_shows {c : Char} : ∀ {s : Control}, s.shows c = true → isShown c = true
  | outside, h => h
  | escape, h | intermediate, h | sequence, h => isShown_of_isLayout h

theorem Control.next_outside {c : Char} (h : isShown c = true) : Control.outside.next c = .outside := by
  rw [Control.next, if_neg]
  · split <;> rfl
  · rintro rfl
    exact absurd h (by decide)

theorem isShown_of_mem_shownFrom : ∀ {t : Text} {s : Control} {i : Bool} {c : Char},
    c ∈ shownFrom s i t → isShown c = true
  | [], _, _, _, h => by simp [shownFrom] at h
  | d :: t, s, true, c, h => by
    rw [shownFrom] at h
    split at h
    · rename_i hd
      rcases List.mem_cons.1 h with rfl | h
      · exact hd
      · split at h <;> exact isShown_of_mem_shownFrom h
    · exact isShown_of_mem_shownFrom h
  | d :: t, s, false, c, h => by
    rw [shownFrom] at h
    split at h
    · rename_i hd
      rcases List.mem_cons.1 h with rfl | h
      · exact Control.isShown_of_shows hd
      · exact isShown_of_mem_shownFrom h
    · exact isShown_of_mem_shownFrom h

/-- **All that is kept is shown.** -/
theorem shown_plain (t : Text) : Shown (plain t) := fun _ => isShown_of_mem_shownFrom

theorem plain_eq_self : ∀ {t : Text}, Shown t → plain t = t
  | [], _ => rfl
  | c :: t, h => by
    have hc := h c (List.mem_cons_self ..)
    have ih : plain t = t := plain_eq_self fun d hd => h d (List.mem_cons_of_mem _ hd)
    rw [plain] at ih
    rw [plain, shownFrom, if_pos (show Control.outside.shows c = true from hc), Control.next_outside hc,
      show ((Control.outside != Control.outside) = false) from rfl, ih]

/-- **Exactly the texts of which all is shown are kept.** -/
theorem plain_eq_self_iff {t : Text} : plain t = t ↔ Shown t :=
  ⟨fun h => h ▸ shown_plain t, plain_eq_self⟩

end Text
end QuantumKernel
