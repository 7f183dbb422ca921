import SchemaBeans.Proofs.TableLines
import SchemaBeans.Proofs.Traversal
import SchemaBeans.Proofs.WrittenFiles
import SchemaBeans.Project

/-!
# Saved configurations

A configuration that is saved is loaded again as it was. Where the lines of some
keys are taken out of its file, these keys have their defaults, and all others
the values that were saved.
-/

namespace SchemaBeans

namespace Toml

/-- Sorting the entries of a table keeps their keys. -/
theorem Entries.contains_sorted (entries : Entries) (key : String) :
    (entries.sorted.map Prod.fst).contains key = (entries.map Prod.fst).contains key := by
  rw [Entries.sorted, Sorted.map_ofList, Bool.eq_iff_iff, List.contains_iff_mem,
    List.contains_iff_mem, Sorted.mem_ofList]

/-- An entry with a string. -/
def TextEntry.ofString (key text : String) (bare : IsBareKey key) : TextEntry :=
  ⟨key, stringText text, .string text, bare, isValueText_string text⟩

end Toml

namespace Config

open Toml (TextEntry TextTable)

section Texts

/-- The entries of the logging table of a saved configuration. -/
def loggingEntries (config : Config) : List TextEntry :=
  [.ofString "level" config.level (by decide)]

/-- The entries of the code generation table of a saved configuration. -/
def codegenEntries (config : Config) : List TextEntry :=
  [.ofString "resource_dir" config.resourceDir.text (by decide),
    .ofString "model_directory" config.modelDirectory.text (by decide),
    .ofString "base_package" config.basePackage (by decide)] ++
  config.outputDir.toList.map
    (fun directory => .ofString "output_dir" directory.text (by decide)) ++
  [.ofString "build_dir" config.buildDir.text (by decide),
    ⟨"jobs", toString config.jobs, .integer config.jobs, by decide,
      Toml.isValueText_natural config.jobs⟩,
    ⟨"echo", Toml.boolText config.echo, .bool config.echo, by decide,
      Toml.isValueText_bool config.echo⟩,
    ⟨"boilerplate", Toml.stringsText config.boilerplate,
      .array (config.boilerplate.map .string) false, by decide,
      Toml.isValueText_strings config.boilerplate⟩]

/-- The lines of those entries whose keys are kept. -/
def keptLines (kept : String → Bool) (entries : List TextEntry) : String :=
  String.join ((entries.filter fun entry => kept entry.key).map fun entry =>
    Toml.line entry.key entry.text)

/-- The text of a configuration file from which the lines of all keys are taken out that are not
kept. -/
def renderKept (kept : String → Bool) (config : Config) : String :=
  "[logging]\n" ++ keptLines kept config.loggingEntries ++ "\n[codegen]\n" ++
    keptLines kept config.codegenEntries

variable {kept : String → Bool} {config source base : Config}

/-- Where all keys are kept, the text is the one that is saved. -/
theorem renderKept_all (config : Config) : config.renderKept (fun _ => true) = config.render := by
  have whole (entries : List TextEntry) : keptLines (fun _ => true) entries =
      String.join (entries.map fun entry => Toml.line entry.key entry.text) := by
    rw [keptLines, List.filter_true]
  unfold render
  cases given : config.outputDir <;>
    simp only [renderKept, whole, loggingEntries, codegenEntries, TextEntry.ofString, given,
      Option.toList_none, Option.toList_some, List.map_nil, List.append_nil, List.cons_append,
      List.nil_append, List.map_cons, String.join_cons, String.join_nil, String.append_assoc,
      String.append_empty]

/-- A configuration with the values of another under the keys that are kept. -/
def pick (kept : String → Bool) (source base : Config) : Config :=
  { level := if kept "level" then source.level else base.level
    resourceDir := if kept "resource_dir" then source.resourceDir else base.resourceDir
    modelDirectory :=
      if kept "model_directory" then source.modelDirectory else base.modelDirectory
    basePackage := if kept "base_package" then source.basePackage else base.basePackage
    outputDir := if kept "output_dir" then source.outputDir else base.outputDir
    buildDir := if kept "build_dir" then source.buildDir else base.buildDir
    jobs := if kept "jobs" then source.jobs else base.jobs
    echo := if kept "echo" then source.echo else base.echo
    boilerplate := if kept "boilerplate" then source.boilerplate else base.boilerplate }

/-- Taking settings from a configuration twice is taking them once for both selections. -/
theorem pick_pick (first later : String → Bool) :
    pick later source (pick first source base) =
      pick (fun key => later key || first key) source base := by
  simp [pick, ite_or]

/-- A selection of all settings is the whole configuration. -/
theorem pick_all : pick (fun _ => true) source base = source := rfl

end Texts

section Tables

variable {kept : String → Bool} {config source base : Config}

/-- No key stands twice among the entries of a table. -/
theorem nodup_loggingEntries (config : Config) :
    (config.loggingEntries.map TextEntry.key).Nodup := by
  simp [loggingEntries]

/-- The settings of generation have different keys. -/
theorem nodup_codegenEntries (config : Config) :
    (config.codegenEntries.map TextEntry.key).Nodup := by
  cases given : config.outputDir <;> simp [codegenEntries, TextEntry.ofString, given]

/-- The entries whose keys are kept, as a table. -/
def keptTable (kept : String → Bool) (name : String) (bare : Toml.IsBareKey name)
    (entries : List TextEntry) (distinct : (entries.map TextEntry.key).Nodup) : TextTable where
  name := name
  bare := bare
  entries := entries.filter fun entry => kept entry.key
  distinct := distinct.sublist ((List.filter_sublist).map _)

/-- The tables of a configuration whose keys are kept. -/
def keptTables (kept : String → Bool) (config : Config) : List TextTable :=
  [keptTable kept "logging" (by decide) config.loggingEntries (nodup_loggingEntries config),
    keptTable kept "codegen" (by decide) config.codegenEntries (nodup_codegenEntries config)]

/-- The text of the settings of a table is that of their lines. -/
theorem toList_keptLines (kept : String → Bool) (entries : List TextEntry) :
    (keptLines kept entries).toList =
      ((entries.filter fun entry => kept entry.key).map Toml.Line.entry).flatMap fun line =>
        line.text.toList := by
  rw [keptLines, String.toList_join, List.flatMap_map, List.flatMap_map]
  rfl

/-- The text of a configuration is that of the lines of its tables. -/
theorem toList_renderKept (kept : String → Bool) (config : Config) :
    (config.renderKept kept).toList =
      (TextTable.allLines (config.keptTables kept)).flatMap fun line => line.text.toList := by
  simp only [renderKept, String.toList_append, toList_keptLines, keptTables, TextTable.allLines,
    TextTable.lines, keptTable, Toml.Line.text, List.flatMap_cons, List.flatMap_nil,
    List.append_nil, List.nil_append, List.flatMap_append, List.cons_append, List.append_assoc, String.reduceToList]

/-- The text of a configuration is read as its tables. -/
theorem parse?_renderKept (kept : String → Bool) (config : Config) :
    Toml.parse? (config.renderKept kept) = some ((config.keptTables kept).map TextTable.pair) :=
  Toml.parse?_allLines _ (by simp [keptTables, keptTable]) (toList_renderKept kept config)

end Tables

section Fields

variable {kept : String → Bool} {config source base : Config}

/-- The texts of a list of strings are read back. -/
theorem readTexts_strings (texts : List String) (ofTables : Bool) :
    readTexts (.array (texts.map .string) ofTables) = .ok texts := by
  have back (text : String) : readText "a string" (.string text) = pure text := rfl
  exact mapM_map_eq_pure back texts

/-- A number of workers is read back. -/
theorem readJobs_natural {jobs : Nat} (small : jobs < Word.limit) :
    readJobs (.integer jobs) = .ok jobs := by
  have below : (jobs : Int) < Word.limit := by omega
  simp [readJobs, below]

/-- What reading an entry does: the field of its key comes from a configuration. -/
def Restores (fields : List (String × FieldReader)) (source : Config)
    (entry : String × Toml.Value) : Prop :=
  ∀ base, readField fields base entry = .ok (pick (fun key => key == entry.1) source base)

/-- Each setting of logging is restored from its own entry. -/
theorem restores_loggingEntries (config : Config) :
    ∀ entry ∈ config.loggingEntries, Restores loggingFields config entry.pair := by
  intro entry inside base
  simp only [loggingEntries, List.mem_singleton] at inside
  subst inside
  rfl

/-- Each setting of generation is restored from its own entry, if the number of workers fits in a
word. -/
theorem restores_codegenEntries (small : config.jobs < Word.limit) :
    ∀ entry ∈ config.codegenEntries, Restores codegenFields config entry.pair := by
  intro entry inside base
  simp only [codegenEntries, List.mem_append, List.mem_cons, List.not_mem_nil, or_false,
    List.mem_map, Option.mem_toList] at inside
  rcases inside with ((rfl | rfl | rfl) | ⟨directory, given, rfl⟩) | rfl | rfl | rfl | rfl
  · rfl
  · rfl
  · rfl
  · calc readField codegenFields base ("output_dir", .string directory.text)
        = .ok { base with outputDir := some directory } := rfl
      _ = .ok { base with outputDir := config.outputDir } := by rw [given]
  · rfl
  · calc readField codegenFields base ("jobs", .integer config.jobs)
        = do return { base with jobs := ← readJobs (.integer config.jobs) } := rfl
      _ = .ok { base with jobs := config.jobs } := by
          rw [readJobs_natural small]
          rfl
  · rfl
  · calc readField codegenFields base
          ("boilerplate", .array (config.boilerplate.map .string) false)
        = do return { base with
            boilerplate := ← readTexts (.array (config.boilerplate.map .string) false) } := rfl
      _ = .ok { base with boilerplate := config.boilerplate } := by
          rw [readTexts_strings]
          rfl

/-- Entries that each restore the field of their key restore the fields of all their keys. -/
theorem foldlM_readField {fields : List (String × FieldReader)} {entries : Toml.Entries}
    (restores : ∀ entry ∈ entries, Restores fields source entry) (base : Config) :
    entries.foldlM (readField fields) base =
      .ok (pick (fun key => (entries.map Prod.fst).contains key) source base) := by
  induction entries generalizing base with
  | nil => rfl
  | cons entry entries hypothesis =>
      have first := restores entry List.mem_cons_self base
      have rest := hypothesis (fun other inside => restores other (List.mem_cons_of_mem _ inside))
        (pick (fun key => key == entry.1) source base)
      rw [List.foldlM_cons, first]
      refine rest.trans ?_
      rw [pick_pick]
      congr 2
      funext key
      rw [List.map_cons, List.contains_cons, Bool.or_comm]

/-- A table whose entries each restore the field of their key restores the fields of its keys. -/
theorem readSection_table {fields : List (String × FieldReader)} {entries : Toml.Entries}
    (restores : ∀ entry ∈ entries, Restores fields source entry) (expected : String)
    (origin : Toml.Origin) (base : Config) :
    readSection fields expected base (.table entries origin) =
      .ok (pick (fun key => (entries.map Prod.fst).contains key) source base) := by
  have sorted : ∀ entry ∈ entries.sorted, Restores fields source entry :=
    fun entry inside => restores entry (Sorted.mem_of_mem_ofList inside)
  have keys : (fun key => (entries.sorted.map Prod.fst).contains key) =
      fun key => (entries.map Prod.fst).contains key :=
    funext (Toml.Entries.contains_sorted entries)
  rw [readSection, foldlM_readField sorted, keys]

end Fields

section Loading

variable {kept : String → Bool} {config base : Config}

/-- The keys that a table keeps. -/
theorem contains_filter (kept : String → Bool) (entries : List TextEntry) (key : String) :
    (((entries.filter fun entry => kept entry.key).map TextEntry.pair).map Prod.fst).contains key =
      ((entries.map TextEntry.key).contains key && kept key) := by
  rw [Bool.eq_iff_iff, Bool.and_eq_true, List.contains_iff_mem, List.contains_iff_mem]
  constructor
  · intro inside
    obtain ⟨pair, among, rfl⟩ := List.mem_map.mp inside
    obtain ⟨entry, listed, rfl⟩ := List.mem_map.mp among
    obtain ⟨listed, taken⟩ := List.mem_filter.mp listed
    exact ⟨List.mem_map.mpr ⟨entry, listed, rfl⟩, taken⟩
  · rintro ⟨inside, taken⟩
    obtain ⟨entry, listed, rfl⟩ := List.mem_map.mp inside
    exact List.mem_map.mpr
      ⟨entry.pair, List.mem_map.mpr ⟨entry, List.mem_filter.mpr ⟨listed, taken⟩, rfl⟩, rfl⟩

/-- A table of which some entries are kept restores the fields of their keys. -/
theorem readSection_kept {fields : List (String × FieldReader)} {entries : List TextEntry}
    (restores : ∀ entry ∈ entries, Restores fields config entry.pair) (kept : String → Bool)
    (expected : String) (origin : Toml.Origin) (base : Config) :
    readSection fields expected base
        (.table ((entries.filter fun entry => kept entry.key).map TextEntry.pair) origin) =
      .ok (pick (fun key => (entries.map TextEntry.key).contains key && kept key) config base) := by
  have listed : ∀ pair ∈ (entries.filter fun entry => kept entry.key).map TextEntry.pair,
      Restores fields config pair := by
    intro pair inside
    obtain ⟨entry, listed, rfl⟩ := List.mem_map.mp inside
    exact restores entry (List.mem_of_mem_filter listed)
  rw [readSection_table listed, funext (contains_filter kept entries)]

/-- The keys of a saved configuration are those of its fields. A directory for the sources that is
not given has no key, and by default there is none. -/
theorem pick_savedKeys (kept : String → Bool) (config : Config) :
    pick (fun key =>
        (config.loggingEntries.map TextEntry.key).contains key && kept key ||
          (config.codegenEntries.map TextEntry.key).contains key && kept key) config default =
      pick kept config default := by
  cases given : config.outputDir <;>
    simp [pick, loggingEntries, codegenEntries, TextEntry.ofString, given, default]

/-- The code generation table is read before the logging table. -/
theorem foldlM_sections {logging codegen : Toml.Value} {first second third : Config}
    (generation : readSection codegenFields "struct CodegenConfig" first codegen = .ok second)
    (events : readSection loggingFields "struct LoggingConfig" second logging = .ok third) :
    (Toml.Entries.sorted [("logging", logging), ("codegen", codegen)]).foldlM
      (readField sections) first = .ok third := by
  have order : Ord.compare "logging" "codegen" = .gt := by decide
  have sorted : Toml.Entries.sorted [("logging", logging), ("codegen", codegen)] =
      [("codegen", codegen), ("logging", logging)] := by
    simp [Toml.Entries.sorted, Sorted.ofList, Sorted.insert, order]
  have earlier : readField sections first ("codegen", codegen) = .ok second := generation
  have later : readField sections second ("logging", logging) = .ok third := events
  rw [sorted]
  calc [("codegen", codegen), ("logging", logging)].foldlM (readField sections) first
      = readField sections first ("codegen", codegen) >>= fun config =>
          [("logging", logging)].foldlM (readField sections) config := List.foldlM_cons
    _ = readField sections second ("logging", logging) >>= pure := by
        rw [earlier]
        rfl
    _ = .ok third := by
        rw [later]
        rfl

/-- What is kept of a saved configuration is read, and the rest is as by default. -/
theorem parse_renderKept (small : config.jobs < Word.limit) (kept : String → Bool) :
    parse (config.renderKept kept) = .ok (pick kept config default) := by
  have generation := readSection_kept (restores_codegenEntries small) kept "struct CodegenConfig"
    .header default
  have events := readSection_kept (restores_loggingEntries config) kept "struct LoggingConfig"
    .header (pick (fun key => (config.codegenEntries.map TextEntry.key).contains key && kept key)
      config default)
  rw [pick_pick, pick_savedKeys] at events
  have folded : (Toml.Entries.sorted ((config.keptTables kept).map TextTable.pair)).foldlM
      (readField sections) default = .ok (pick kept config default) :=
    foldlM_sections generation events
  rw [parse, parse?_renderKept]
  simp only [folded]
  rfl

/-- What a saved configuration and its file have to do with each other. -/
structure Reloads (config : Config) : Prop where
  /-- The file holds the configuration, and is loaded as it. -/
  saved : ∀ (path : Path) (files after : FileSystem), config.save path files = .ok after →
    after.read path = .ok config.render ∧ ofFile after path = .ok config
  /-- A file from which some keys are taken out is loaded with the defaults for these keys. -/
  kept : ∀ (kept : String → Bool) (path : Path) (files : FileSystem),
    files.read path = .ok (config.renderKept kept) →
      ofFile files path = .ok (pick kept config default)
  /-- Where no key is taken out, the file is the one that was saved. -/
  whole : config.renderKept (fun _ => true) = config.render

/-- A file is read as the configuration of its text. -/
theorem ofFile_of_parse {files : FileSystem} {path : Path} {text : String}
    (holds : files.read path = .ok text) (parsed : parse text = .ok config) :
    ofFile files path = .ok config := by
  rw [ofFile, holds]
  simp only [parsed]

/-- A configuration that is saved is loaded again, whatever its texts hold, and each key that is
taken out of its file has its default. -/
theorem reloads (small : config.jobs < Word.limit) : config.Reloads := by
  constructor
  · intro path files after saved
    have written : files.write path config.render = .ok after := by
      unfold save at saved
      split at saved
      · next wrote =>
          cases saved
          exact wrote
      · cases saved
    have holds := FileSystem.read_of_write written
    have parsed := parse_renderKept small fun _ => true
    rw [renderKept_all, pick_all] at parsed
    exact ⟨holds, ofFile_of_parse holds parsed⟩
  · intro kept path files holds
    exact ofFile_of_parse holds (parse_renderKept small kept)
  · exact renderKept_all config

/-- Quotes of both kinds, a backslash, controls and line breaks are loaded again, and so is the
greatest number of workers. -/
theorem quoted_reloads :
    18446744073709551615 < Word.limit ∧
      Reloads
        { default with
          level := "\x27\x27\x27\\\x22\x22\x22\n\x00"
          resourceDir := ⟨"a\x22b\x27"⟩
          jobs := 18446744073709551615
          boilerplate := ["one\r\n", "\\"] } :=
  ⟨by decide, reloads (by decide)⟩

end Loading

end Config

end SchemaBeans
