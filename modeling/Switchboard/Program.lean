import Switchboard.CommandLine
import Switchboard.Config.File
import Switchboard.Emission.Write
import Switchboard.Generation
import Switchboard.Introspection.Catalogue
import Switchboard.Plan.Report

/-! The program: a run that reads a model with all that belongs to it, and shows a plan or writes
what is generated. -/

namespace Switchboard

/-- Why the program fails. -/
inductive ProgramError
  | usage (e : UsageError)
  | unreadableModel (file : String) (reason : FileError)
  | malformedModel (p : Json.Problem)
  | source (e : IntrospectionError)
  | config (e : ConfigError)
  | run (e : RunError)
  /-- A module has a name that the index cannot mount it by. -/
  | unmountable

/-- Why a text is no model, in words. -/
def modelProblem : Json.Problem → String
  | .fault .ended => "invalid model json: the text ends too early"
  | .fault .malformed => "invalid model json: the text is malformed"
  | .mismatch m => "invalid model json: " ++ m.message

/-- The error in words. -/
def ProgramError.message : ProgramError → String
  | .usage e => e.message
  | .unreadableModel file reason => s!"failed to read model '{file}': {reason.message}"
  | .malformedModel p => modelProblem p
  | .source e => e.message
  | .config e => e.message
  | .run e => e.message
  | .unmountable => "a module has no name that the index can mount it by"

/-- What a run is made from. -/
structure Inputs where
  model : Model
  sources : Catalogue
  config : Config

namespace Inputs

/-- The catalogue of source files. -/
def loadSources (t : FileTree) (here : Place) (sources : List (String × String)) :
    Except IntrospectionError Catalogue :=
  sources.foldlM (fun c (module, file) => Catalogue.addFile c t here module file) []

/-- All that a run is made from: the model is read first, then the sources, then the settings. -/
def load (t : FileTree) (here : Place) (i : Invocation) : Except ProgramError Inputs :=
  match FileAction.contents t here i.model with
  | .error reason => .error (.unreadableModel i.model reason)
  | .ok text =>
    match Model.ofText text with
    | .error p => .error (.malformedModel p)
    | .ok model =>
      match loadSources t here i.sources with
      | .error e => .error (.source e)
      | .ok sources =>
        let config := match i.config with
          | some file => Config.load t here file
          | none => Config.loadOrStandard t here Config.fileName
        match config with
        | .error e => .error (.config e)
        | .ok config => .ok ⟨model, sources, config⟩

/-- The model's own types first, then those of the sources. -/
def introspector (i : Inputs) : Introspector :=
  .chain [TypeTable.introspector i.model.types, i.sources.introspector]

end Inputs

namespace Program

/-- What a run prints, or why it fails. -/
abbrev Outcome := Except ProgramError String

/-- Shows the plan of a model. -/
def plan (i : Inputs) : Outcome :=
  match (Plan.make i.model i.introspector i.config).2 with
  | .ok p => .ok ((Report.ofPlan p).toJson.pretty ++ "\n")
  | .error e => .error (.run e)

/-- Writes what is generated from a model. -/
def generate (i : Inputs) (here : Place) (out : String) (t : FileTree) : FileTree × Outcome :=
  match Generation.run Emission.fieldMapper i.model i.introspector i.config with
  | .error e => (t, .error (.run e))
  | .ok s =>
    match s.write? here out .relative with
    | none => (t, .error .unmountable)
    | some action =>
      match action t with
      | (t, .ok _) => (t, .ok "")
      | (t, .error reason) => (t, .error (.run (.write reason)))

/-- A run with some arguments in a directory. The surroundings may name a file of settings. -/
def run (arguments : List String) (surroundings : Option String) (here : Place) (t : FileTree) :
    FileTree × Outcome :=
  match CommandLine.parse surroundings arguments with
  | .error e => (t, .error (.usage e))
  | .ok i =>
    match Inputs.load t here i with
    | .error e => (t, .error e)
    | .ok inputs =>
      match i.task with
      | .plan => (t, plan inputs)
      | .generate => generate inputs here i.out t

end Program

end Switchboard
