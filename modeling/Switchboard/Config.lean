import Switchboard.Naming.Check
import Switchboard.Json.Reader

/-! Settings of a run: where the generated modules are mounted, what the dispatcher is called, and
how loudly a lost claim is reported. -/

namespace Switchboard

/-- How loudly a lost claim is reported. It is never an error. -/
inductive ConflictLevel
  | silent | debug | warn
deriving DecidableEq, Repr, Inhabited

namespace ConflictLevel

/-- The level as settings spell it. -/
def name : ConflictLevel → String
  | .silent => "silent"
  | .debug => "debug"
  | .warn => "warn"

def all : List ConflictLevel := [.silent, .debug, .warn]

/-- The level that a name spells. -/
def ofName (name : String) : Except Mismatch ConflictLevel :=
  match all.find? fun level => level.name == name with
  | some level => .ok level
  | none => .error (.unknownVariant name (all.map ConflictLevel.name))

def reader : Json.Reader ConflictLevel :=
  .variant fun o name payload =>
    match ofName name with
    | .ok level => do
      Json.Reader.unitVariant o payload
      return level
    | .error m => Json.Reader.mismatch m

end ConflictLevel

/-- The settings of a run. -/
structure Config where
  mount : String := "crate::internal"
  dispatcher : String := "Dispatcher"
  conflicts : ConflictLevel := .debug
deriving DecidableEq, Repr, Inhabited

/-- A setting with a value that cannot stand in source text. -/
inductive SettingFault
  | mount (fault : NameFault)
  | dispatcher (fault : NameFault)
deriving DecidableEq, Repr

def SettingFault.key : SettingFault → String
  | .mount _ => "namespace"
  | .dispatcher _ => "dispatcher"

def SettingFault.message (f : SettingFault) : String :=
  let reason := match f with
    | .mount fault | .dispatcher fault => fault.message
  s!"invalid config value for '{f.key}': {reason}"

namespace Config

/-- The file that settings are read from if no other is named. -/
def fileName : String := "typemux.toml"

def keys : List String := ["namespace", "dispatcher", "conflicts"]

/-- What keeps settings from being used. -/
def fault? (c : Config) : Option SettingFault :=
  match Naming.pathFault? c.mount with
  | some fault => some (.mount fault)
  | none => (Naming.identifierFault? c.dispatcher).map .dispatcher

structure Draft where
  mount : Option String := none
  dispatcher : Option String := none
  conflicts : Option ConflictLevel := none

/-- Settings with what is missing filled in. -/
def Draft.finish (d : Draft) : Config :=
  { mount := d.mount.getD "crate::internal",
    dispatcher := d.dispatcher.getD "Dispatcher",
    conflicts := d.conflicts.getD .debug }

/-- Reads the JSON form: an object, or an array of the settings in order. -/
def reader : Json.Reader Config
  | o, .object found ending => do
    let step (d : Draft) (key : String) (t : Json.Tree) : Except Json.Problem Draft := do
      match key with
      | "namespace" => return { d with mount := ← Json.Reader.field .string o key d.mount t }
      | "dispatcher" =>
        return { d with dispatcher := ← Json.Reader.field .string o key d.dispatcher t }
      | "conflicts" =>
        return { d with conflicts := ← Json.Reader.field ConflictLevel.reader o key d.conflicts t }
      | key => Json.Reader.mismatch (.unknownField key keys)
    return (← Json.Reader.entries step {} found ending).finish
  | o, .array items ending => do
    let standard : Config := {}
    let mount ← Json.Reader.itemD .string o standard.mount items ending 0
    let dispatcher ← Json.Reader.itemD .string o standard.dispatcher items ending 1
    let conflicts ← Json.Reader.itemD ConflictLevel.reader o standard.conflicts items ending 2
    Json.Reader.closeAfter o 3 items ending
    return { mount, dispatcher, conflicts }
  | _, t => Json.Reader.reject "struct BuildConfig" t

def toJson (c : Config) : Json :=
  .object [("conflicts", .string c.conflicts.name), ("dispatcher", .string c.dispatcher),
    ("namespace", .string c.mount)]

end Config

end Switchboard
