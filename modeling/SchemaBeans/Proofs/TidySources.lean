import SchemaBeans.Output
import SchemaBeans.Proofs.Cleaning
import SchemaBeans.Proofs.Imports
import SchemaBeans.Proofs.Writing

/-!
# Tidy sources

No line of a source ends with a blank. A description is trimmed before it is made
fit for a comment, and what stands for a character there ends with none either.
So cleaning changes no source, and what is written and what is shown is the source
itself.
-/

namespace SchemaBeans

namespace DocComment

open Text

variable {indent text line : List Char}

/-- Sanitizing leaves something of a line that has something. -/
theorem sanitizeFrom_eq_nil {blankSoFar : Bool} (empty : sanitizeFrom blankSoFar line = []) :
    line = [] := by
  revert empty
  fun_cases sanitizeFrom blankSoFar line with
  | case1 => exact fun empty => absurd (List.append_eq_nil_iff.mp empty).1 (by decide)
  | case2 => exact fun empty => absurd (List.append_eq_nil_iff.mp empty).1 (by decide)
  | case3 => exact fun empty => nomatch empty
  | case4 => exact fun empty => nomatch empty
  | case5 => exact id

/-- Making a line fit for a comment leaves it solid. -/
theorem solid_sanitizeFrom (blankSoFar : Bool) (solid : Solid line) :
    Solid (sanitizeFrom blankSoFar line) := by
  fun_induction sanitizeFrom blankSoFar line with
  | case1 blankSoFar rest hypothesis =>
      have tail : Solid rest := Solid.of_append ['*', '/'] solid
      exact Solid.append (by decide) (hypothesis tail)
  | case2 rest hypothesis =>
      have tail : Solid rest := Solid.of_append ['@'] solid
      exact Solid.append (by decide) (hypothesis tail)
  | case3 blankSoFar rest notBlank hypothesis =>
      have tail : Solid rest := Solid.of_append ['@'] solid
      have mark : Solid ['@'] := by decide
      exact mark.append (hypothesis tail)
  | case4 blankSoFar character rest _ _ hypothesis =>
      have tail : Solid rest := Solid.of_append [character] solid
      by_cases last : rest = []
      · subst last
        exact solid
      · exact (hypothesis tail).append_left (mt sanitizeFrom_eq_nil last) [character]
  | case5 => exact solid_nil

/-- The lines of a description are trimmed, so they end with no blanks. -/
theorem solid_of_mem_contentLines (content : line ∈ contentLines text) : Solid line := by
  obtain ⟨read, _, rfl⟩ := List.mem_map.mp (withoutOuterEmpty_subset _ content)
  exact solid_trimEnd _

/-- No line of a comment ends with a blank. -/
theorem solid_of_mem_lines (written : line ∈ lines indent text) : Solid line := by
  rcases mem_lines written with rfl | ⟨content, inside, rfl⟩ | rfl
  · exact Solid.append_left (by decide) (by decide) indent
  · unfold contentLine
    split
    · exact Solid.append_left (by decide) (by decide) indent
    · next given =>
        have kept : Solid (sanitize content) :=
          solid_sanitizeFrom true (solid_of_mem_contentLines inside)
        exact kept.append_left (mt sanitizeFrom_eq_nil given) _
  · exact Solid.append_left (by decide) (by decide) indent

end DocComment

namespace Bean

open Text

variable {options : EmitOptions} {model : Model} {fields : List Field} {line : String}

/-- A line that ends with a mark, whatever stands before it. -/
theorem solid_append_mark (front : String) {mark : String} (solid : Solid mark.toList)
    (some : mark.toList ≠ []) : Solid (front ++ mark).toList := by
  rw [String.toList_append]
  exact solid.append_left some front.toList

/-- No line of a comment ends with a blank. -/
theorem solid_of_mem_commentLines {indent : String} {description : Option String}
    (inside : line ∈ commentLines indent description) : Solid line.toList := by
  cases description with
  | none => cases inside
  | some text =>
      obtain ⟨written, present, rfl⟩ := List.mem_map.mp inside
      rw [String.toList_ofList]
      exact DocComment.solid_of_mem_lines present

/-- No line of a header ends with a blank. -/
theorem solid_of_mem_headerLines {source : Path} :
    ∀ line ∈ headerLines source, Solid line.toList := by
  have title : Solid (titleLine source).toList := solid_append_mark _ (by decide) (by decide)
  have notice : Solid noticeLine.toList := by decide +kernel
  exact List.forall_mem_cons.mpr ⟨title, List.forall_mem_cons.mpr
    ⟨notice, List.forall_mem_singleton.mpr solid_nil⟩⟩

/-- No line of a package declaration ends with a blank. -/
theorem solid_of_mem_packageLines {package : String} (inside : line ∈ packageLines package) :
    Solid line.toList := by
  unfold packageLines at inside
  split at inside
  · cases inside
  · rcases List.mem_cons.mp inside with rfl | last
    · exact solid_append_mark _ (by decide) (by decide)
    · exact List.mem_singleton.mp last ▸ solid_nil

/-- No line of the imports ends with a blank. -/
theorem solid_of_mem_importLines {names : List String} (inside : line ∈ importLines names) :
    Solid line.toList := by
  unfold importLines at inside
  split at inside
  · cases inside
  · rcases List.mem_append.mp inside with declared | last
    · obtain ⟨name, _, rfl⟩ := List.mem_map.mp declared
      exact solid_append_mark _ (by decide) (by decide)
    · exact List.mem_singleton.mp last ▸ solid_nil

/-- No line of the declaration of a field ends with a blank. -/
theorem solid_of_mem_fieldLines {field : Field} (inside : line ∈ fieldLines field) :
    Solid line.toList := by
  rcases List.mem_append.mp inside with comment | declaration
  · exact solid_of_mem_commentLines comment
  · rw [List.mem_singleton.mp declaration]
    exact solid_append_mark _ (by decide) (by decide)

/-- No line of the accessors of a field ends with a blank. -/
theorem solid_of_mem_accessorLines {field : Field} (inside : line ∈ accessorLines field) :
    Solid line.toList := by
  have closing : Solid "    \x7d".toList := by decide
  simp only [accessorLines, List.mem_cons, List.not_mem_nil, or_false] at inside
  rcases inside with rfl | rfl | rfl | rfl | rfl | rfl | rfl | rfl
  · exact solid_nil
  · exact solid_append_mark _ (by decide) (by decide)
  · exact solid_append_mark _ (by decide) (by decide)
  · exact closing
  · exact solid_nil
  · exact solid_append_mark _ (by decide) (by decide)
  · exact solid_append_mark _ (by decide) (by decide)
  · exact closing

/-- No line of a boilerplate method ends with a blank. -/
theorem solid_of_mem_methodLines {method : Boilerplate} (inside : line ∈ method.lines) :
    Solid line.toList := by
  have all : ∀ method : Boilerplate, ∀ line ∈ method.lines, Solid line.toList
    | .sumOfTen => by decide +kernel
  exact all method line inside

/-- No line in the body of a class ends with a blank. -/
theorem solid_of_mem_bodyLines (inside : line ∈ bodyLines options fields) :
    Solid line.toList := by
  simp only [bodyLines, List.mem_append, List.mem_flatMap, List.mem_cons] at inside
  rcases inside with
    ((opening | ⟨field, _, inside⟩) | ⟨field, _, inside⟩) | ⟨method, _, rfl | inside⟩
  · split at opening
    · cases opening
    · exact List.mem_singleton.mp opening ▸ solid_nil
  · exact solid_of_mem_fieldLines inside
  · exact solid_of_mem_accessorLines inside
  · exact solid_nil
  · exact solid_of_mem_methodLines inside

/-- No line of a class ends with a blank. -/
theorem solid_of_mem_classLines (inside : line ∈ classLines options model fields) :
    Solid line.toList := by
  simp only [classLines, List.mem_append, List.mem_singleton] at inside
  rcases inside with ((((package | imported) | comment) | rfl) | body) | rfl
  · exact solid_of_mem_packageLines package
  · exact solid_of_mem_importLines imported
  · exact solid_of_mem_commentLines comment
  · exact solid_append_mark _ (by decide) (by decide)
  · exact solid_of_mem_bodyLines body
  · decide

/-- The lines of a class and those of its header are tidy. -/
theorem tidy_sourceText (unbroken : Unbroken options model fields)
    (located : '\n' ∉ model.source.text.toList) :
    SourceUnit.Tidy (sourceText options model fields).toList := by
  have lines : SourceUnit.TidyLines
      ((headerLines model.source ++ classLines options model fields).map String.toList) := by
    constructor
    · refine List.forall_mem_map.mpr (List.forall_mem_append.mpr ⟨?_, ?_⟩)
      · exact not_mem_of_mem_headerLines located
      · exact fun _ => not_mem_of_mem_classLines unbroken
    · refine List.forall_mem_map.mpr (List.forall_mem_append.mpr ⟨?_, ?_⟩)
      · exact solid_of_mem_headerLines
      · exact fun _ => solid_of_mem_classLines
    · rw [classLines, ← List.append_assoc, List.map_append, List.map_singleton,
        List.getLast?_concat]
      simp
  have tidy := lines.tidy (by simp [headerLines])
  rwa [← textOf, textOf_append, ← toList_header, ← toList_sourceText] at tidy

end Bean

namespace SourceUnit

/-- A unit whose source is written and shown as it is: cleaning does not change it, the echo is the
source below a line with the path of the unit, and a file that is written holds the source. -/
structure Verbatim (unit : SourceUnit) : Prop where
  fixed : clean unit.source = unit.source
  echoed : unit.echo = "// ---- " ++ unit.relative.text ++ " ----\n" ++ unit.source
  written : ∀ root files path after, unit.write root files = (.ok path, after) →
    path = unit.target root ∧ ∃ between slot,
      files.makeDirectories (unit.targetDirectory root) = (.ok (), between) ∧
        between.slot path = .ok slot ∧
        after.entryAt? slot.location = some (.file (.text unit.source))

/-- A written unit is the cleaned source in the slot of its path. -/
theorem write_eq_ok {unit : SourceUnit} {root path : Path} {files after : FileSystem}
    (written : unit.write root files = (.ok path, after)) :
    path = unit.target root ∧ ∃ between,
      files.makeDirectories (unit.targetDirectory root) = (.ok (), between) ∧
        between.replace path (clean unit.source) = .ok after := by
  unfold write at written
  split at written
  · cases written
  · next between made =>
      split at written
      · cases written
      · next replaced =>
          cases written
          exact ⟨rfl, between, made, replaced⟩

/-- A tidy source is written and shown as it is. -/
theorem Tidy.verbatim {unit : SourceUnit} (tidy : Tidy unit.source.toList) : Verbatim unit := by
  have fixed : clean unit.source = unit.source := clean_eq_self_iff.mpr (.inr tidy)
  refine ⟨fixed, by rw [echo, fixed], fun root files path after written => ?_⟩
  obtain ⟨target, between, made, replaced⟩ := write_eq_ok written
  obtain ⟨slot, found, _, _, rfl⟩ := FileSystem.replace_eq_ok replaced
  refine ⟨target, between, slot, made, found, ?_⟩
  rw [FileSystem.entryAt?_put (FileSystem.location_ne_nil slot), if_pos rfl, fixed]

end SourceUnit

namespace Bean

/-- The source of a kept model is tidy, so it is written and shown as it is, whatever the
descriptions of the model are. Of the texts that go into a source, only its path and the base
package could break a line; a base package that is a package cannot. -/
theorem source_verbatim (options : EmitOptions) (models : List Model)
    (package : '\n' ∉ options.basePackage.toList) (loadable : ∀ model ∈ models, model.Loadable)
    (entry : Numbered) (kept : entry ∈ (Analysis.ofModels models).kept)
    (located : '\n' ∉ entry.2.source.text.toList) :
    ∃ unit, emit options (Analysis.ofModels models).index entry.2 = .ok unit ∧
      SourceUnit.Tidy unit.source.toList ∧ unit.Verbatim := by
  obtain ⟨unit, emitted⟩ := exists_emit_of_kept options kept
  obtain ⟨fields, written, rfl⟩ := emit_eq_ok_iff.mp emitted
  have unbroken := unbroken_of_loadable package (loadable_of_kept loadable kept)
    (fun _ inside => identified_of_mem_names loadable inside) written
  have tidy := tidy_sourceText unbroken located
  exact ⟨_, emitted, tidy, SourceUnit.Tidy.verbatim tidy⟩

/-- A label whose descriptions have blanks at the ends of their lines, a carriage return, a closing
mark and blank lines at either end. -/
def label : Model :=
  ⟨"Label", some "\n Printed once. \t\r\n\n Then kept \u2003*/ \n \n",
    [⟨"code", .primitive .string, some "@ \r"⟩, ⟨"lines", .list (.primitive .string), some " "⟩], [],
    ⟨"label.yaml"⟩⟩

/-- The class of the label is written exactly as it was emitted. -/
theorem label_verbatim :
    (0, label) ∈ (Analysis.ofModels [label]).kept ∧
      ∃ unit, emit ⟨"com.example", [.sumOfTen]⟩ (Analysis.ofModels [label]).index label =
          .ok unit ∧ SourceUnit.Tidy unit.source.toList ∧ unit.Verbatim := by
  have loadable : ∀ model ∈ [label], model.Loadable :=
    List.forall_mem_singleton.mpr ⟨by decide +kernel, [], rfl⟩
  have kept : (0, label) ∈ (Analysis.ofModels [label]).kept := by decide +kernel
  exact ⟨kept, source_verbatim ⟨"com.example", [.sumOfTen]⟩ [label] (by decide) loadable (0, label)
    kept (by decide)⟩

end Bean

end SchemaBeans
