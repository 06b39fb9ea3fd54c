import Switchboard.Source.Token

/-! Pieces of source text that are the same in everything that is emitted. A piece without brackets
is written as it is printed, with blanks between its tokens. -/

namespace Switchboard.Emission

open Source (Token Word)

/-- The tokens that are printed between two blanks: a name, a lifetime, or marks in a row. -/
def lexeme (cs : List Char) : List Token :=
  match cs with
  | '\'' :: name => [.mark '\'' .joint, .word (.plain (String.ofList name))]
  | c :: _ =>
    if c.isAlphanum || c == '_' then [.word (.plain (String.ofList cs))] else Token.marks cs
  | [] => []

/-- The tokens of a piece without brackets. -/
def code (printed : String) : List Token := (printed.toList.splitOn ' ').flatMap lexeme

def paren (body : List Token) : List Token := [.group .paren body]

def bracket (body : List Token) : List Token := [.group .bracket body]

def brace (body : List Token) : List Token := [.group .brace body]

def attr (body : List Token) : List Token := code "#" ++ bracket body

/-- An attribute that documents what follows it. -/
def doc (text : String) : List Token := attr (code "doc =" ++ [.string text])

/-- An attribute that documents what follows it, written as a raw literal. -/
def rawDoc (text : String) : List Token :=
  attr (code "doc =" ++ [.literal ("r\"" ++ text ++ "\"")])

def derive (names : String) : List Token := attr (code "derive" ++ paren (code names))

def allow (names : String) : List Token := attr (code "allow" ++ paren (code names))

/-- The attribute of a function whose result is not to be ignored. -/
def mustUse : List Token := attr (code "must_use")

/-- The call of a constructor that takes what is in parentheses. -/
def call (function : String) (arguments : List Token) : List Token :=
  code function ++ paren arguments

/-- The arm for names that no other arm has. -/
def unmatchedArm : List Token :=
  code "_ =>" ++ call ":: std :: result :: Result :: Err"
    (call ":: typemux :: core :: MapperError :: unmatched" (code "type_name") ++ code ",") ++
  code ","

/-- The body of a function that chooses an arm by the type name. -/
def chooseArm (arms : List Token) : List Token :=
  brace (code "match type_name" ++ brace (arms ++ unmatchedArm))

/-- How a type converts single objects: the arms of both directions, each with the one for all other
names at its end. -/
def objectMapper (lints : String) (type : Word) (decodeArms encodeArms : List Token) : List Token :=
  allow lints ++ code "impl :: typemux :: core :: ObjectMapper for" ++ [.word type] ++ brace
    (code "fn decode_one" ++
      paren (code "& self , type_name : & str , record : :: typemux :: core :: Record ,") ++
      code "-> :: std :: result :: Result <" ++
      code ":: std :: boxed :: Box < dyn :: typemux :: core :: Payload > ," ++
      code ":: typemux :: core :: MapperError , >" ++
      chooseArm decodeArms ++
    code "fn encode_one_as" ++
      paren (code "& self , object : & dyn :: typemux :: core :: Payload , type_name : & str ,") ++
      code "-> :: std :: result :: Result < :: typemux :: core :: Record ," ++
      code ":: typemux :: core :: MapperError >" ++
      chooseArm encodeArms)

end Switchboard.Emission
