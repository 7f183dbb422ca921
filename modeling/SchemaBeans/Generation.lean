import SchemaBeans.Bean
import SchemaBeans.Loading
import SchemaBeans.Registration

/-!
# Generation

A run first makes its plan: it loads the documents and analyses the models, and
changes nothing. Then it carries the plan out: it registers the output directory,
and emits and writes the kept models. What is wrong with one document is listed
in the report; everything else stops the run.
-/

namespace SchemaBeans

/-- Who is told about the directory of the sources. -/
inductive Registrar where
  /-- The directory is only noted. -/
  | note
  /-- A build tool that watches a schema root is told on standard output. -/
  | buildTool (schemaRoot : Path)
  deriving DecidableEq, Repr

/-- The host after the registration of a directory. -/
def Registrar.register (registrar : Registrar) (directory : Path) (host : Host) : Host :=
  let host := { host with registered := directory :: host.registered }
  match registrar with
  | note => host
  | buildTool schemaRoot =>
      (Registration.directives schemaRoot directory).foldl
        (fun host line => host.print (line ++ "\n")) host

namespace Generation

/-- What a run found out before it changes anything. -/
structure Plan where
  loading : Loading
  analysis : Analysis
  deriving DecidableEq, Repr

namespace Plan

/-- The problem of a model that was left out, if the position is that of a loaded model. -/
def rejection? (loading : Loading) (entry : Nat × Rejection) : Option Problem :=
  loading.models[entry.1]?.map fun (file, _) => ⟨file.path, .rejected entry.2⟩

/-- The problems of the models that were left out, in the order in which they were found. -/
def rejections (plan : Plan) : List Problem :=
  plan.analysis.rejected.filterMap (rejection? plan.loading)

/-- The plan for loaded documents. -/
def ofLoading (loading : Loading) : Plan :=
  ⟨loading, Analysis.ofModels (loading.models.map Prod.snd)⟩

/-- The event of a plan that is made. -/
def event (plan : Plan) : Event :=
  .trace "PIPELINE" (toString plan.analysis.kept.length ++ " of " ++
    toString plan.loading.models.length ++ " models passed analysis")

end Plan

/-- A unit that was written, with its path. -/
structure Written where
  unit : SourceUnit
  path : Path
  deriving DecidableEq, Repr

/-- What became of a kept model: its written unit, or a reference that cannot be resolved. -/
abbrev Emitted := Except ResolutionError Written

/-- The event of a unit that was rendered. -/
def renderedEvent (unit : SourceUnit) (model : Model) : Event :=
  .trace "CODEGEN" ("rendered " ++ unit.relative.text ++ " (" ++
    toString model.properties.length ++ " properties)")

/-- Emits and writes one model. -/
def emitAndWrite (options : EmitOptions) (index : Index) (root : Path) (model : Model)
    (host : Host) : Except WriteError Emitted × Host :=
  match Bean.emit options index model with
  | .error error => (.ok (.error error), host)
  | .ok unit =>
      let host := host.tell (renderedEvent unit model)
      match unit.write root host.files with
      | (.error error, files) => (.error error, host.withFiles files)
      | (.ok path, files) =>
          (.ok (.ok ⟨unit, path⟩),
            (host.withFiles files).tell (.trace "WRITER" ("wrote " ++ path.text)))

/-- Emitting and writing the kept models on a host. -/
def task (options : EmitOptions) (index : Index) (root : Path) :
    Pool.Task Numbered Host (Except WriteError Emitted) where
  cancelled := Host.cancelled
  cancel := Host.cancel
  work entry host :=
    let (outcome, host) := emitAndWrite options index root entry.2 host
    (some outcome, host)

/-- The units among what became of the kept models. -/
def writtenOf (outcomes : List (Numbered × Emitted)) : List Written :=
  outcomes.filterMap fun (_, outcome) => outcome.toOption

/-- The problems among what became of the kept models. -/
def unresolvedOf (loading : Loading) (outcomes : List (Numbered × Emitted)) : List Problem :=
  outcomes.filterMap fun (entry, outcome) =>
    match outcome with
    | .ok _ => none
    | .error error => Plan.rejection? loading (entry.1, .unresolved error)

/-- The event of one kept model. -/
def outcomeEvent (loading : Loading) (entry : Numbered × Emitted) : Option Event :=
  match entry.2 with
  | .ok written => some ⟨.generation, .info, "generated " ++ written.path.text⟩
  | .error error =>
      (Plan.rejection? loading (entry.1.1, .unresolved error)).map Loading.problemEvent

/-- The event at the start of a run. -/
def startEvent (settings : Settings) : Event :=
  ⟨.generation, .info, "generating " ++ Bean.kind ++ " sources from " ++ settings.schemaRoot.text ++
    " into " ++ settings.outputDir.text⟩

/-- Loads and analyses the models of a run. A cancelled run gets no plan. -/
def plan (schedule : List Pool.Move) (settings : Settings) (host : Host) :
    Except RunError Plan × Host :=
  match Loading.ofRoot schedule settings.jobs settings.schemaRoot
      (host.tell (startEvent settings)) with
  | (.error error, host) => (.error error, host)
  | (.ok loading, host) =>
      if host.cancelled then (.error (.halted .cancelled), host)
      else
        let plan := Plan.ofLoading loading
        (.ok plan, (host.tellAll (plan.rejections.map Loading.problemEvent)).tell plan.event)

/-- The report on a plan and what became of its kept models. -/
def report (plan : Plan) (outcomes : List (Numbered × Emitted)) : Report :=
  { discovered := plan.loading.discovered
    loaded := plan.loading.models.length
    generated := (writtenOf outcomes).length
    written := (writtenOf outcomes).map Written.path
    problems := Problem.sorted
      (plan.loading.problems ++ plan.rejections ++ unresolvedOf plan.loading outcomes)
    warnings := plan.loading.warnings }

/-- The host after the end of a run is told: its units are shown if the settings say so. -/
def finish (settings : Settings) (plan : Plan) (outcomes : List (Numbered × Emitted))
    (host : Host) : Report × Host :=
  let host := host.tellAll (outcomes.filterMap (outcomeEvent plan.loading))
  let host :=
    if settings.echo then
      (writtenOf outcomes).foldl (fun host written => host.print written.unit.echo) host
    else host
  let report := report plan outcomes
  (report, host.tell ⟨.generation, .info, report.summary⟩)

/-- Emits and writes the kept models of a plan below the output directory. -/
def writeAll (schedule : List Pool.Move) (settings : Settings) (options : EmitOptions)
    (plan : Plan) (host : Host) : Except RunError Report × Host :=
  match host.files.makeDirectories settings.outputDir with
  | (.error error, files) =>
      (.error (.write ⟨settings.outputDir, error⟩), host.withFiles files)
  | (.ok (), files) =>
      match Pool.tryRun schedule settings.jobs
          (task options plan.analysis.index settings.outputDir) plan.analysis.kept
          (host.withFiles files) with
      | (.error (.failed error), host) => (.error (.write error), host)
      | (.error (.halted halt), host) => (.error (.halted halt), host)
      | (.ok outcomes, host) =>
          let (report, host) := finish settings plan (plan.analysis.kept.zip outcomes) host
          (.ok report, host)

/-- The schedules of the two pools of a run. -/
structure Schedule where
  loading : List Pool.Move
  writing : List Pool.Move
  deriving DecidableEq, Repr

/-- The schedule that leaves the order to the pools. -/
def Schedule.free : Schedule := ⟨[], []⟩

/-- Runs the generation with some settings. -/
def run (schedule : Schedule) (registrar : Registrar) (settings : Settings) (host : Host) :
    Except RunError Report × Host :=
  match settings.emitOptions with
  | .error error => (.error (.settings error), host)
  | .ok options =>
      match plan schedule.loading settings host with
      | (.error error, host) => (.error error, host)
      | (.ok plan, host) =>
          writeAll schedule.writing settings options plan
            (registrar.register settings.outputDir host)

end Generation

end SchemaBeans
