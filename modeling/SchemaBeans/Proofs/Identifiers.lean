import SchemaBeans.Identifier
import SchemaBeans.Text.Blank

/-!
# Characters of identifiers

Identifiers hold ASCII letters, digits, `_` and `$` only. What is claimed of their
characters is checked on the ASCII characters and carried over by `forall_of_isPart`;
everything else that a name may be cut at or surrounded by lies outside of them.
-/

namespace SchemaBeans.Identifier

variable {character : Char} {name more : List Char}

@[simp] theorem hasShape_cons (first : Char) (rest : List Char) :
    hasShape (first :: rest) = (isStart first && rest.all isPart) := rfl

/-- Further parts of identifiers keep the shape of one. -/
theorem hasShape_append (shaped : hasShape name = true) (parts : more.all isPart = true) :
    hasShape (name ++ more) = true := by
  cases name with
  | nil => cases shaped
  | cons first rest => simp_all

/-- What can start an identifier can go on with it. -/
theorem isPart_of_isStart (start : isStart character = true) : isPart character = true := by
  unfold isStart at start
  unfold isPart Char.isAlphanum
  grind

/-- The characters of an identifier may all stand inside it. -/
theorem isPart_of_mem (shaped : hasShape name = true) (inside : character ∈ name) :
    isPart character = true := by
  cases name with
  | nil => cases inside
  | cons first rest =>
      obtain ⟨start, parts⟩ := Bool.and_eq_true_iff.mp shaped
      rcases List.mem_cons.mp inside with rfl | later
      · exact isPart_of_isStart start
      · exact List.all_eq_true.mp parts character later

/-- An identifier stands on one line. -/
theorem lineFeed_not_mem (shaped : hasShape name = true) : '\n' ∉ name :=
  fun inside => absurd (isPart_of_mem shaped inside) (by decide)

/-- An identifier holds no character that separates names from each other. -/
theorem not_mem_of_isIdentifier {name : String} (valid : isIdentifier name = true)
    {character : Char} (other : isPart character = false) : character ∉ name.toList := by
  intro inside
  rw [isPart_of_mem valid inside] at other
  cases other

/-- The characters of identifiers are ASCII. -/
theorem toNat_lt_of_isPart (part : isPart character = true) : character.toNat < 128 := by
  have below {bound : UInt32} (within : character.val ≤ bound) (low : bound.toNat < 128) :
      character.toNat < 128 :=
    Nat.lt_of_le_of_lt (UInt32.le_iff_toNat_le.mp within) low
  rcases Bool.or_eq_true_iff.mp part with part | dollar
  · rcases Bool.or_eq_true_iff.mp part with plain | underscore
    · rcases Bool.or_eq_true_iff.mp plain with letter | digit
      · rcases Bool.or_eq_true_iff.mp letter with upper | lower
        · exact below (of_decide_eq_true upper).2 (by decide)
        · exact below (of_decide_eq_true (Bool.and_eq_true_iff.mp lower).2) (by decide)
      · exact below (of_decide_eq_true (Bool.and_eq_true_iff.mp digit).2) (by decide)
    · rw [of_decide_eq_true underscore]
      decide
  · rw [of_decide_eq_true dollar]
    decide

/-- What holds of the ASCII characters that may stand in an identifier holds of all that may. -/
theorem forall_of_isPart {property : Char → Prop}
    (ascii : ∀ code < 128, isPart (Char.ofNat code) = true → property (Char.ofNat code)) :
    ∀ character, isPart character = true → property character := by
  intro character part
  have holds := ascii character.toNat (toNat_lt_of_isPart part)
  rw [Char.ofNat_toNat] at holds
  exact holds part

/-- Identifiers hold no blanks. -/
theorem isBlank_eq_false_of_isPart (part : isPart character = true) :
    Text.isBlank character = false := by
  have solid : ∀ character, isPart character = true → Text.isBlank character = false :=
    forall_of_isPart (by decide +kernel)
  exact solid character part

/-- In identifiers, upper case is that of ASCII. -/
theorem upperCase_of_isPart (part : isPart character = true) :
    Text.upperCase character = [character.toUpper] := by
  have ascii : ∀ character, isPart character = true →
      Text.upperCase character = [character.toUpper] := forall_of_isPart (by decide +kernel)
  exact ascii character part

/-- An identifier is not blank. -/
theorem allBlank_eq_false (shaped : hasShape name = true) : Text.allBlank name = false := by
  cases name with
  | nil => cases shaped
  | cons first rest =>
      have solid := isBlank_eq_false_of_isPart (isPart_of_mem shaped List.mem_cons_self)
      simp [Text.allBlank, solid]

end SchemaBeans.Identifier
