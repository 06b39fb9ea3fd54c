import Switchboard.Emission.Code
import Switchboard.Source.Lexer

/-! Sets of generated files, and the index file that mounts them as modules. -/

namespace Switchboard

open Source (Token Word)

/-- How the index finds the files that it mounts. -/
inductive IncludeBase
  /-- Below the directory that a build names. -/
  | outDir
  /-- Below the directory of the index itself. -/
  | relative
deriving DecidableEq, Repr, Inhabited

structure GeneratedFile where
  path : String
  /-- The module that the index mounts it as. -/
  module : Option String
  contents : String
deriving DecidableEq, Repr, Inhabited

/-- A converter file for each group, and the dispatcher. -/
structure FileSet where
  converters : List GeneratedFile
  dispatcher : GeneratedFile
deriving DecidableEq, Repr, Inhabited

namespace Emission

/-- The first line of everything that is generated. -/
def header : String := "// @generated by typemux. Do not edit.\n"

def contents (ts : List Token) : String := header ++ Token.printAll ts ++ "\n"

def dispatcherPath : String := "internal/dispatcher.rs"

def indexPath : String := "internal.rs"

def includeFile (base : IncludeBase) (path : String) : List Token :=
  match base with
  | .outDir =>
    code "include !" ++
      paren (code "concat !" ++
        paren (code "env !" ++ paren [.string "OUT_DIR"] ++ code "," ++ [.string ("/" ++ path)])) ++
      code ";"
  | .relative => code "include !" ++ paren [.string path] ++ code ";"

/-- The word that a module is mounted as: the whole text is one name, which may be a keyword. -/
def moduleWord? (module : String) : Option Word :=
  match Source.Lexer.word? module.toList with
  | some (w, []) => some w
  | _ => none

def mountFile (base : IncludeBase) (module : Word) (path : String) : List Token :=
  code "pub mod" ++ [.word module] ++ brace (includeFile base path)

end Emission

namespace GeneratedFile

/-- A file with some tokens. -/
def of (path : String) (module : Option String) (ts : List Token) : GeneratedFile :=
  ⟨path, module, Emission.contents ts⟩

/-- The tokens that mount a converter, none for one without a module, and nothing at all if its
module has no proper name. -/
def mount? (base : IncludeBase) (f : GeneratedFile) : Option (List Token) :=
  match f.module with
  | none => some []
  | some module => (Emission.moduleWord? module).map fun w => Emission.mountFile base w f.path

end GeneratedFile

namespace FileSet

def files (s : FileSet) : List GeneratedFile := s.converters ++ [s.dispatcher]

/-- The first file with a path. -/
def file? (s : FileSet) (path : String) : Option GeneratedFile :=
  s.files.find? fun f => f.path == path

def size (s : FileSet) : Nat := s.converters.length + 1

/-- The contents of the index, nothing if a module has no proper name. -/
def index? (s : FileSet) (base : IncludeBase) : Option String := do
  let mounts ← s.converters.mapM (GeneratedFile.mount? base)
  return Emission.contents
    (Emission.code "pub mod mapper" ++ Emission.brace mounts.flatten ++
      Emission.includeFile base s.dispatcher.path)

end FileSet

end Switchboard
