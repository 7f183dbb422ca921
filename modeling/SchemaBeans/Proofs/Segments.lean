import SchemaBeans.Proofs.Placement

/-!
# Segments of packages

The segments that directory names are made into are exactly the names that stay as
they are: they are not empty, hold small ASCII letters, digits, `_` and `$` only, do
not start with a digit and are not reserved. Of lower case two things are used: it
keeps such characters, and it leaves no ASCII capital.
-/

namespace SchemaBeans

namespace Text

variable {character image : Char} {code : Nat}

/-- Characters are in the order of their codes. -/
theorem toNat_le_of_le {left right : Char} (le : left ≤ right) : left.toNat ≤ right.toNat :=
  UInt32.le_iff_toNat_le.mp le

/-- The capital letters are those from A to Z. -/
theorem isUpper_iff :
    character.isUpper = true ↔ 0x41 ≤ character.toNat ∧ character.toNat ≤ 0x5A := by
  have shape : character.isUpper =
      decide (character.val ≥ 'A'.val ∧ character.val ≤ 'Z'.val) := rfl
  rw [shape, decide_eq_true_iff, ge_iff_le, UInt32.le_iff_toNat_le, UInt32.le_iff_toNat_le]
  exact Iff.rfl

/-- The small letters are those from a to z. -/
theorem isLower_iff : character.isLower = true ↔ 'a' ≤ character ∧ character ≤ 'z' := by
  have shape : character.isLower =
      (decide (character.val ≥ 'a'.val) && decide (character.val ≤ 'z'.val)) := rfl
  rw [shape, Bool.and_eq_true, decide_eq_true_iff, decide_eq_true_iff]
  exact Iff.rfl

theorem isAlpha_eq : character.isAlpha = (character.isUpper || character.isLower) := rfl

/-- The digits are those from 0 to 9. -/
theorem isDigit_iff : character.isDigit = true ↔ '0' ≤ character ∧ character ≤ '9' := by
  simp [Char.isDigit, Char.le_def]

/-- No code point behind `Z` is that of a capital. -/
theorem isUpper_ofNat (beyond : 0x5A < code) : (Char.ofNat code).isUpper = false := by
  rw [Bool.eq_false_iff, Ne, isUpper_iff]
  by_cases valid : code.isValidChar
  · have same : Char.ofNat code = Char.ofNatAux code valid := dif_pos valid
    have number : (Char.ofNatAux code valid).toNat = code := rfl
    rw [same, number]
    omega
  · have replaced : Char.ofNat code = '\x00' := dif_neg valid
    rw [replaced]
    decide

/-- Among the characters of identifiers, lower case is that of ASCII. -/
theorem lowerCase_of_isPart (part : Identifier.isPart character = true) :
    lowerCase character = [if character.isUpper then character.toLower else character] ∧
      character.toLower.isUpper = false := by
  have ascii : ∀ character, Identifier.isPart character = true →
      lowerCase character = [if character.isUpper then character.toLower else character] ∧
        character.toLower.isUpper = false :=
    Identifier.forall_of_isPart (by decide +kernel)
  exact ascii character part

/-- Lower case leaves no ASCII capital. -/
theorem isUpper_of_mem_lowerCase (inside : image ∈ lowerCase character) :
    image.isUpper = false := by
  by_cases part : Identifier.isPart character = true
  · obtain ⟨lowered, small⟩ := lowerCase_of_isPart part
    rw [lowered, List.mem_singleton] at inside
    rw [inside]
    split
    · exact small
    · next notUpper => exact Bool.eq_false_iff.mpr notUpper
  -- A character that is in no identifier is no capital, and the tables lead to none either.
  · unfold lowerCase mapCase at inside
    split at inside
    · next codes found =>
        have beyond : ∀ entry ∈ lowerSpecial, ∀ code ∈ entry.2, 0x5A < code := by decide
        obtain ⟨before, after, whole, _⟩ := List.lookup_eq_some_iff.mp found
        obtain ⟨code, listed, rfl⟩ := List.mem_map.mp inside
        exact isUpper_ofNat (beyond (character.toNat, codes) (by simp [whole]) code listed)
    · split at inside
      · next code found =>
          have beyond : ∀ run ∈ lowerRuns, 0x5A < run.2.2.2 := by decide +kernel
          obtain ⟨run, first, rfl⟩ := Option.map_eq_some_iff.mp found
          have target := beyond run (List.mem_of_find?_eq_some first)
          rw [List.mem_singleton.mp inside]
          exact isUpper_ofNat (Nat.lt_of_lt_of_le target (Nat.le_add_right _ _))
      · rw [List.mem_singleton.mp inside]
        refine Bool.eq_false_iff.mpr fun upper => part ?_
        simp [Identifier.isPart, Char.isAlphanum, isAlpha_eq, upper]

end Text

namespace Package

variable {character : Char} {directory name : String}

/-- The characters of segments. -/
def SegmentPart (character : Char) : Prop :=
  'a' ≤ character ∧ character ≤ 'z' ∨ '0' ≤ character ∧ character ≤ '9' ∨
    character = '_' ∨ character = '$'

/-- A name that can be a segment of a package. -/
structure IsSegment (name : String) : Prop where
  given : name ≠ ""
  parts : ∀ character ∈ name.toList, SegmentPart character
  start : ∀ first ∈ name.toList.head?, ¬ ('0' ≤ first ∧ first ≤ '9')
  free : name ∉ Identifier.reservedWords

/-- The characters of segments are those of identifiers without the capitals. -/
theorem segmentPart_iff :
    SegmentPart character ↔ Identifier.isPart character = true ∧ character.isUpper = false := by
  rw [← Bool.not_eq_true, Text.isUpper_iff]
  simp only [SegmentPart, Identifier.isPart, Char.isAlphanum, Text.isAlpha_eq, Bool.or_eq_true,
    decide_eq_true_eq, Text.isUpper_iff, Text.isLower_iff, Text.isDigit_iff]
  constructor
  · rintro (small | digit | rfl | rfl)
    · have above : 0x61 ≤ character.toNat := Text.toNat_le_of_le small.1
      exact ⟨.inl (.inl (.inl (.inr small))), by omega⟩
    · have below : character.toNat ≤ 0x39 := Text.toNat_le_of_le digit.2
      exact ⟨.inl (.inl (.inr digit)), by omega⟩
    · simp
    · simp
  · rintro ⟨(((capital | small) | digit) | underscore) | dollar, notCapital⟩
    · exact absurd capital notCapital
    · exact .inl small
    · exact .inr (.inl digit)
    · exact .inr (.inr (.inl underscore))
    · exact .inr (.inr (.inr dollar))

/-- A segment starts with anything but a digit. -/
theorem isStart_iff (part : SegmentPart character) :
    Identifier.isStart character = true ↔ ¬ ('0' ≤ character ∧ character ≤ '9') := by
  rcases part with small | digit | rfl | rfl
  · have above : 0x61 ≤ character.toNat := Text.toNat_le_of_le small.1
    refine iff_of_true ?_ fun digit => ?_
    · simp [Identifier.isStart, Text.isAlpha_eq, Text.isLower_iff.mpr small]
    · have below : character.toNat ≤ 0x39 := Text.toNat_le_of_le digit.2
      omega
  · have above : 0x30 ≤ character.toNat := Text.toNat_le_of_le digit.1
    have below : character.toNat ≤ 0x39 := Text.toNat_le_of_le digit.2
    refine iff_of_false (fun start => ?_) (not_not_intro digit)
    simp only [Identifier.isStart, Text.isAlpha_eq, Bool.or_eq_true, decide_eq_true_eq,
      Text.isUpper_iff, Text.isLower_iff] at start
    rcases start with ((capital | small) | rfl) | rfl
    · omega
    · have beyond : 0x61 ≤ character.toNat := Text.toNat_le_of_le small.1
      omega
    · exact absurd below (by decide)
    · exact absurd above (by decide)
  · decide
  · decide

/-- A character that is not a capital letter becomes a part of segments. -/
theorem segmentPart_segmentChar (small : character.isUpper = false) :
    SegmentPart (segmentChar character) := by
  unfold segmentChar
  split
  · next part => exact segmentPart_iff.mpr ⟨part, small⟩
  · exact .inr (.inr (.inl rfl))

/-- Only underscores are put around the characters that a directory name is mapped to. -/
theorem exists_toList_segment (directory : String) : ∃ front behind,
    (segment directory).toList =
      front ++ (directory.toList.flatMap Text.lowerCase).map segmentChar ++ behind ∧
      ∀ character ∈ front ++ behind, character = '_' := by
  simp only [segment]
  generalize (directory.toList.flatMap Text.lowerCase).map segmentChar = mapped
  by_cases shaped : Identifier.hasShape mapped = true
  · rw [if_pos shaped]
    split
    · exact ⟨[], ['_'], by simp, by simp⟩
    · exact ⟨[], [], by simp, by simp⟩
  · rw [if_neg shaped]
    split
    · exact ⟨['_'], ['_'], by simp, by simp⟩
    · exact ⟨['_'], [], by simp, by simp⟩

/-- A segment is made of parts of segments only. -/
theorem segmentPart_of_mem_segment (inside : character ∈ (segment directory).toList) :
    SegmentPart character := by
  obtain ⟨front, behind, whole, underscores⟩ := exists_toList_segment directory
  rw [whole, List.append_assoc, List.mem_append, List.mem_append] at inside
  rcases inside with before | mapped | after
  · exact .inr (.inr (.inl (underscores character (List.mem_append_left _ before))))
  · obtain ⟨lowered, listed, rfl⟩ := List.mem_map.mp mapped
    obtain ⟨written, _, image⟩ := List.mem_flatMap.mp listed
    exact segmentPart_segmentChar (Text.isUpper_of_mem_lowerCase image)
  · exact .inr (.inr (.inl (underscores character (List.mem_append_right _ after))))

/-- Every name of a directory gives a segment. -/
theorem isSegment_segment (directory : String) : IsSegment (segment directory) := by
  obtain ⟨shaped, free⟩ := Bool.and_eq_true_iff.mp (isValid_segment directory)
  constructor
  · exact Identifier.ne_empty_of_isIdentifier shaped
  · exact fun character => segmentPart_of_mem_segment
  · intro first leads
    obtain ⟨other, rest, whole, start⟩ := (Identifier.wellNamed_of_isIdentifier shaped).start
    rw [whole] at leads
    obtain rfl := Option.some.inj leads
    have part : SegmentPart other := segmentPart_of_mem_segment (whole ▸ List.mem_cons_self)
    exact (isStart_iff part).mp start
  · intro reserved
    rw [Identifier.isReserved, List.contains_iff_mem.mpr reserved] at free
    cases free

/-- A segment is an identifier that is not reserved. -/
theorem IsSegment.isValid (proper : IsSegment name) : Identifier.isValid name = true := by
  have parts : ∀ character ∈ name.toList, Identifier.isPart character = true :=
    fun character inside => (segmentPart_iff.mp (proper.parts character inside)).1
  have shaped : Identifier.isIdentifier name = true := by
    obtain ⟨first, rest, whole⟩ :=
      List.exists_cons_of_ne_nil (mt String.toList_eq_nil_iff.mp proper.given)
    have start := (isStart_iff (proper.parts first (by simp [whole]))).mpr
      (proper.start first (by simp [whole]))
    rw [whole] at parts
    rw [Identifier.isIdentifier, whole, Identifier.hasShape_cons, start,
      List.all_eq_true.mpr (List.forall_mem_cons.mp parts).2]
    rfl
  have free : Identifier.isReserved name = false :=
    Bool.eq_false_iff.mpr (mt List.contains_iff_mem.mp proper.free)
  rw [Identifier.isValid, shaped, free]
  rfl

/-- The characters of segments are kept when they are mapped. -/
theorem map_segmentChar_eq_self {characters : List Char}
    (parts : ∀ character ∈ characters, SegmentPart character) :
    (characters.flatMap Text.lowerCase).map segmentChar = characters := by
  induction characters with
  | nil => rfl
  | cons first rest hypothesis =>
      obtain ⟨own, others⟩ := List.forall_mem_cons.mp parts
      obtain ⟨part, small⟩ := segmentPart_iff.mp own
      have lowered : Text.lowerCase first = [first] := by
        rw [(Text.lowerCase_of_isPart part).1, small]
        rfl
      rw [List.flatMap_cons, lowered, List.singleton_append, List.map_cons, hypothesis others,
        segmentChar, if_pos part]

/-- The names that stay as they are, are the segments. -/
theorem segment_eq_self_iff : segment name = name ↔ IsSegment name := by
  constructor
  · intro same
    exact same ▸ isSegment_segment name
  · intro proper
    obtain ⟨shaped, free⟩ := Bool.and_eq_true_iff.mp proper.isValid
    rw [Bool.not_eq_true'] at free
    unfold Identifier.isIdentifier at shaped
    simp only [segment, map_segmentChar_eq_self proper.parts, shaped, if_true,
      String.ofList_toList, free]
    rfl

/-- Any directory name becomes a segment, which is a valid identifier without separators and stays
as it is from then on; and each of some directories becomes a valid identifier of their
namespace. -/
theorem segments_proper :
    (∀ directory, IsSegment (segment directory) ∧
      Identifier.isValid (segment directory) = true ∧
      (∀ separator ∈ ['.', '/', '\\'], separator ∉ (segment directory).toList) ∧
      segment (segment directory) = segment directory) ∧
    ∀ directories, (namespaceOf directories).length = directories.length ∧
      ∀ name ∈ namespaceOf directories, Identifier.isValid name = true := by
  refine ⟨fun directory => ?_, fun directories => ⟨?_, ?_⟩⟩
  · have proper := isSegment_segment directory
    refine ⟨proper, proper.isValid, ?_, segment_eq_self_iff.mpr proper⟩
    have separate : ∀ separator ∈ ['.', '/', '\\'], Identifier.isPart separator = false := by
      rw [List.forall_mem_cons, List.forall_mem_cons, List.forall_mem_singleton]
      decide
    intro separator listed
    exact Identifier.not_mem_of_isIdentifier
      (Identifier.isIdentifier_of_isValid proper.isValid) (separate separator listed)
  · exact List.length_map _
  · exact fun _ => isValid_of_mem_namespaceOf

example : namespaceOf ["", "\u212Aelvin \u0130", "2024", "New", "a.b/C"] =
    ["__", "kelvin_i_", "_2024", "new_", "a_b_c"] := by
  decide +kernel

end Package

end SchemaBeans
