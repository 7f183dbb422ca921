import Mathlib.Data.List.Chain
import SchemaBeans.Text.CodePoint

/-!
# Unicode escapes

A compiler of the generated sources replaces Unicode escapes before anything else. A
backslash after an even number of others may start an escape; it does if a `u` follows
it, and then four hexadecimal digits must come behind one `u` or more. The translation
takes one character at a time, so what it does to a text is the sum of its steps, and a
character that takes part in no escape cuts a text in two.
-/

namespace SchemaBeans.Lexical

/-- A character of a source after the translation: one that is written in the text, or the code unit
that an escape stands for. -/
inductive InputCharacter where
  | written (character : Char)
  | escaped (unit : Nat)
  deriving DecidableEq, Repr

/-- The code of a character, however it is spelled. -/
def InputCharacter.code : InputCharacter → Nat
  | written character => character.toNat
  | escaped unit => unit

/-- Where in an escape a translation stands. -/
inductive Stage where
  /-- Behind an even number of backslashes, and in no escape. -/
  | even
  /-- Behind a backslash that starts an escape if a `u` follows. -/
  | backslash
  /-- Behind a `u` and the given number of digits, which have the given value. -/
  | escape (digits value : Nat)
  deriving DecidableEq, Repr

namespace Stage

/-- Takes one character: the stage behind it and what is read by then, or nothing if an escape is
broken off. -/
def advance? : Stage → Char → Option (Stage × List InputCharacter)
  | even, character =>
      if character = '\\' then some (backslash, []) else some (even, [.written character])
  | backslash, character =>
      if character = 'u' then some (escape 0 0, [])
      else some (even, [.written '\\', .written character])
  | escape digits value, character =>
      if character = 'u' ∧ digits = 0 then some (escape 0 0, [])
      else (Text.hexValue? character).map fun digit =>
        if digits = 3 then (even, [.escaped (16 * value + digit)])
        else (escape (digits + 1) (16 * value + digit), [])

/-- What is read at the end of a text; an escape must not stand open there. -/
def finish? : Stage → Option (List InputCharacter)
  | even => some []
  | backslash => some [.written '\\']
  | escape _ _ => none

/-- Everything that a character can do: it stays inside what may be an escape, is read as it is, is
read behind the backslash before it, or ends an escape. -/
theorem advance?_cases {stage next : Stage} {character : Char} {read : List InputCharacter}
    (advanced : stage.advance? character = some (next, read)) :
    (next ≠ even ∧ read = []) ∨
      (stage = even ∧ next = even ∧ read = [.written character]) ∨
      (stage = backslash ∧ next = even ∧ read = [.written '\\', .written character]) ∨
      ∃ unit, next = even ∧ read = [.escaped unit] := by
  cases stage with
  | even =>
      simp only [advance?] at advanced
      split at advanced <;> cases advanced <;> simp
  | backslash =>
      simp only [advance?] at advanced
      split at advanced <;> cases advanced <;> simp
  | escape digits value =>
      simp only [advance?] at advanced
      split at advanced
      · cases advanced
        simp
      · obtain ⟨digit, _, same⟩ := Option.map_eq_some_iff.mp advanced
        split at same <;> cases same <;> simp

end Stage

/-- Reads a text from a stage on. -/
def translateFrom : Stage → List Char → Option (List InputCharacter)
  | stage, [] => stage.finish?
  | stage, character :: rest =>
      (stage.advance? character).bind fun step => (translateFrom step.1 rest).map (step.2 ++ ·)

/-- The characters of a text; none if an escape in it lacks digits. -/
def translate (text : List Char) : Option (List InputCharacter) := translateFrom .even text

/-- A character that takes part in no escape. -/
structure Inert (character : Char) : Prop where
  not_backslash : character ≠ '\\'
  not_mark : character ≠ 'u'
  not_digit : Text.hexValue? character = none

instance (character : Char) : Decidable (Inert character) :=
  decidable_of_iff (character ≠ '\\' ∧ character ≠ 'u' ∧ Text.hexValue? character = none)
    ⟨fun ⟨backslash, mark, digit⟩ => ⟨backslash, mark, digit⟩,
      fun inert => ⟨inert.not_backslash, inert.not_mark, inert.not_digit⟩⟩

/-- Hexadecimal digits lie between `0` and `f`. -/
theorem toNat_of_hexValue? {character : Char} {value : Nat}
    (digit : Text.hexValue? character = some value) :
    48 ≤ character.toNat ∧ character.toNat ≤ 102 := by
  have within : ∀ {low high : Char},
      (decide (low ≤ character) && decide (character ≤ high)) = true →
      low.toNat ≤ character.toNat ∧ character.toNat ≤ high.toNat := by
    intro low high bounds
    obtain ⟨lower, upper⟩ := Bool.and_eq_true_iff.mp bounds
    exact ⟨UInt32.le_iff_toNat_le.mp (of_decide_eq_true lower),
      UInt32.le_iff_toNat_le.mp (of_decide_eq_true upper)⟩
  unfold Text.hexValue? at digit
  split at digit
  · next decimal =>
      have bounds := @within '0' '9' decimal
      exact ⟨bounds.1, bounds.2.trans (by decide)⟩
  · split at digit
    · next lower =>
        have bounds := within lower
        exact ⟨.trans (by decide) bounds.1, bounds.2⟩
    · split at digit
      · next upper =>
          have bounds := within upper
          exact ⟨.trans (by decide) bounds.1, bounds.2.trans (by decide)⟩
      · cases digit

variable {character : Char} {stage : Stage} {left right text : List Char}

/-- A character that takes part in no escape is read behind what would be read at the end. -/
theorem Inert.advance?_eq (inert : Inert character) :
    stage.advance? character =
      stage.finish?.map fun read => (.even, read ++ [.written character]) := by
  cases stage <;>
    simp [Stage.advance?, Stage.finish?, inert.not_backslash, inert.not_mark, inert.not_digit]

/-- What stands before a character that takes part in no escape is read apart from what follows. -/
theorem translateFrom_cut (inert : Inert character) :
    translateFrom stage (left ++ character :: right) =
      (translateFrom stage left).bind fun first =>
        (translate right).map fun second => first ++ .written character :: second := by
  induction left generalizing stage with
  | nil =>
      rw [List.nil_append, translateFrom, translateFrom, inert.advance?_eq]
      cases stage.finish? <;> simp [translate]
  | cons front left hypothesis =>
      rw [List.cons_append, translateFrom, translateFrom]
      cases stage.advance? front with
      | none => rfl
      | some step =>
          simp only [Option.bind_some, hypothesis]
          cases translateFrom step.1 left <;> cases translate right <;> simp

/-- Characters other than backslashes are read as they are outside of escapes. -/
theorem translate_append (plain : ∀ character ∈ left, character ≠ '\\') :
    translate (left ++ right) = (translate right).map (left.map .written ++ ·) := by
  induction left with
  | nil => simp
  | cons character left hypothesis =>
      obtain ⟨first, plain⟩ := List.forall_mem_cons.mp plain
      have advanced : Stage.even.advance? character = some (.even, [.written character]) :=
        if_neg first
      rw [List.cons_append, translate, translateFrom, advanced, Option.bind_some]
      change (translate (left ++ right)).map _ = _
      rw [hypothesis plain, Option.map_map]
      rfl

/-- A text is read from a stage on, behind some character, so that each two neighbours are
related. -/
def Chained (relation : InputCharacter → InputCharacter → Prop) (before : InputCharacter)
    (stage : Stage) (text : List Char) : Prop :=
  ∃ read, translateFrom stage text = some read ∧ (before :: read).IsChain relation

section Chained

variable {relation : InputCharacter → InputCharacter → Prop} {before : InputCharacter}

/-- A chain is cut behind its front. -/
theorem isChain_cons_append_iff {read rest : List InputCharacter} :
    (before :: (read ++ rest)).IsChain relation ↔
      (before :: read).IsChain relation ∧ (read.getLastD before :: rest).IsChain relation := by
  induction read generalizing before with
  | nil => simp
  | cons first read hypothesis =>
      rw [List.cons_append, List.isChain_cons_cons, List.isChain_cons_cons, hypothesis,
        List.getLastD_cons, and_assoc]

/-- One character of a text, and what it leads to. -/
theorem chained_cons_iff :
    Chained relation before stage (character :: text) ↔
      ∃ next read, stage.advance? character = some (next, read) ∧
        (before :: read).IsChain relation ∧
        Chained relation (read.getLastD before) next text := by
  constructor
  · rintro ⟨whole, translated, chain⟩
    rw [translateFrom] at translated
    obtain ⟨⟨next, read⟩, advanced, translated⟩ := Option.bind_eq_some_iff.mp translated
    obtain ⟨rest, later, rfl⟩ := Option.map_eq_some_iff.mp translated
    obtain ⟨first, second⟩ := isChain_cons_append_iff.mp chain
    exact ⟨next, read, advanced, first, rest, later, second⟩
  · rintro ⟨next, read, advanced, first, rest, later, second⟩
    refine ⟨read ++ rest, ?_, isChain_cons_append_iff.mpr ⟨first, second⟩⟩
    rw [translateFrom, advanced, Option.bind_some, later]
    rfl

/-- A character that takes part in no escape, and that may follow every other one, cuts a text. -/
theorem chained_cut (inert : Inert character)
    (follows : ∀ other, relation other (.written character)) :
    Chained relation before stage (left ++ character :: right) ↔
      Chained relation before stage left ∧
        Chained relation (.written character) .even right := by
  have split : ∀ first second,
      (before :: (first ++ .written character :: second)).IsChain relation ↔
      (before :: first).IsChain relation ∧ (.written character :: second).IsChain relation := by
    intro first second
    rw [← List.cons_append, List.isChain_append]
    constructor
    · rintro ⟨chain, rest, _⟩
      exact ⟨chain, rest⟩
    · rintro ⟨chain, rest⟩
      refine ⟨chain, rest, fun other _ next isNext => ?_⟩
      cases Option.some.inj isNext
      exact follows other
  unfold Chained
  rw [translateFrom_cut inert]
  constructor
  · rintro ⟨whole, translated, chain⟩
    obtain ⟨first, front, translated⟩ := Option.bind_eq_some_iff.mp translated
    obtain ⟨second, back, rfl⟩ := Option.map_eq_some_iff.mp translated
    obtain ⟨chain, rest⟩ := (split first second).mp chain
    exact ⟨⟨first, front, chain⟩, second, back, rest⟩
  · rintro ⟨⟨first, front, chain⟩, second, back, rest⟩
    refine ⟨first ++ .written character :: second, ?_, (split first second).mpr ⟨chain, rest⟩⟩
    rw [front, translate, back]
    rfl

end Chained

end SchemaBeans.Lexical
