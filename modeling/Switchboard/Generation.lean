import Switchboard.Emission.Dispatcher
import Switchboard.Emission.FileSet

/-! Generation: a converter for each group and the dispatcher, made from a model. -/

namespace Switchboard

namespace Generation

/-- The file of a converter. -/
def converterFile (emit : Emission.Emitter) (f : ConverterFile) :
    Except EmissionError GeneratedFile := do
  return .of f.path (some f.module) (← emit f)

/-- The files of a plan. Converters are made first. -/
def ofPlan (emit : Emission.Emitter) (p : Plan) (c : Config) : Except EmissionError FileSet := do
  let converters ← p.files.mapM (converterFile emit)
  let dispatcher ← Emission.dispatcher p c
  return ⟨converters, .of Emission.dispatcherPath none dispatcher⟩

/-- The files of a model. -/
def run (emit : Emission.Emitter) (m : Model) (ask : Introspector) (c : Config) :
    Except RunError FileSet :=
  match (Plan.make m ask c).2 with
  | .error e => .error e
  | .ok p =>
    match ofPlan emit p c with
    | .error e => .error (.emission e)
    | .ok s => .ok s

end Generation

end Switchboard
