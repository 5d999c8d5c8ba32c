import PrimScript.Json.Reader
import PrimScript.Syntax.Parse.Script
import PrimScript.Syntax.Stored
import PrimScript.Syntax.Validity

/-! Scripts from text: from source text, or from a stored syntax tree. -/

namespace PrimScript

inductive ScriptError
  | lexical (e : LexError) : ScriptError
  | grammar (e : SyntaxError) : ScriptError
  | invalid (e : ValidityError) : ScriptError
  | notStored : ScriptError

def ScriptError.message : ScriptError → String
  | .lexical e => s!"Tokenize error: {e.message}"
  | .grammar e => e.message
  | .invalid e => s!"Validation error: {e.message}"
  | .notStored => "Invalid AST: not a syntax tree"

namespace Script

def ofSource (source : String) : Except ScriptError Script :=
  match Lexeme.ofChars source.toList with
  | .error e => .error (.lexical e)
  | .ok ls => (Script.parse (Lexeme.significant ls)).mapError .grammar

def validated (s : Script) : Except ScriptError Script :=
  match s.validate with
  | .ok () => .ok s
  | .error e => .error (.invalid e)

def read (source : String) : Except ScriptError Script := do
  let s ← ofSource source
  s.validated

def load (json : String) : Except ScriptError Script :=
  match (Json.read? json).bind ofJson? with
  | some s => s.validated
  | none => .error .notStored

/-- A stored syntax tree when the text starts with a brace, and source text otherwise. -/
def readOrLoad (text : String) : Except ScriptError Script :=
  match Text.trimStart text.toList with
  | '\x7b' :: _ => load text
  | _ => read text

end Script

end PrimScript
