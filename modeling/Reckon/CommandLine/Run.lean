import Reckon.CommandLine.Options
import Reckon.Plugin.Manifest
import Reckon.Text.Rune
import Reckon.Tree.Json
import Reckon.Tree.Outline

/-!
# Running the command line

What a command line does: it lists the tokens of a program, shows its tree, runs it, or evaluates an
expression. The result is what is printed and the exit code; files are given by their contents.
-/

namespace Reckon.CommandLine

/-- What a run leaves behind. -/
structure Outcome where
  /-- The exit code. -/
  exit : Nat
  /-- What is printed. -/
  stdout : String := ""
  /-- What is reported. -/
  stderr : String := ""
deriving DecidableEq, Repr, Inhabited

/-- The contents of a file, if it exists. -/
abbrev Files := String → Option (List UInt8)

/-- The version of the language. -/
def versionNumber : String := "0.1.0-dev"

/-- The description of the command line. -/
def usage : String :=
  "calx " ++ versionNumber ++ "\n\n" ++
    "Usage: calx [options] <file.calx>\n" ++
    "       calx [options] -e <expression>\n\n" ++
    "Options:\n" ++
    "  -ast-format string\n    \tAST output format (text or json) (default \"text\")\n" ++
    "  -e string\n    \tEvaluate expression and print the result\n" ++
    "  -emit-ast\n    \tOutput AST\n" ++
    "  -emit-tokens\n    \tOutput token stream\n" ++
    "  -plugin value\n    \tLoad a YAML plugin manifest (repeatable)\n" ++
    "  -timeout duration\n    \tAbort evaluation after this long (0 means no limit)\n" ++
    "  -version\n    \tPrint version\n"

/-- The outcome of arguments that are no options. -/
def OptionError.outcome (error : OptionError) : Outcome :=
  match error.message? with
  | none => { exit := 0, stderr := usage }
  | some message => { exit := 2, stderr := message ++ "\n" ++ usage }

/-- A failure with a message. -/
def failed (message : String) : Outcome :=
  { exit := 1, stderr := "error: " ++ message ++ "\n" }

/-- Why a file cannot be read. -/
def missingFile (name : String) : String :=
  "open " ++ name ++ ": no such file or directory"

/-- Diagnostics, each on a line. -/
def diagnosticLines (found : List Diagnostic) : String :=
  String.join (found.map fun diagnostic => diagnostic.message ++ "\n")

/-! ## Listing tokens -/

/-- A text with blanks after it, up to a number of characters. -/
def padded (width : Nat) (text : String) : String :=
  text ++ String.ofList (List.replicate (width - text.length) ' ')

/-- A line of the listing. -/
def listingLine (position token literal : String) : String :=
  padded 20 position ++ " " ++ padded 12 token ++ " " ++ literal ++ "\n"

/-- A character of a literal in the listing. -/
def listedChar (c : Char) : String :=
  match c with
  | '\n' => "\\n"
  | '\t' => "\\t"
  | '\r' => "\\r"
  | '\\' => "\\\\"
  | '"' => "\\\""
  | c => if c.toNat = 0 then "\\0" else String.singleton c

/-- A literal in the listing. -/
def listedLiteral (literal : String) : String :=
  "\"" ++ String.join (literal.toList.map listedChar) ++ "\""

/-- The head of the listing. -/
def listingHead : String :=
  let rule (n : Nat) : String := String.ofList (List.replicate n '-')
  listingLine "POSITION" "TOKEN" "LITERAL" ++ listingLine (rule 20) (rule 12) (rule 20)

/-- List the tokens of a program. -/
def listTokens (file : String) (source : List UInt8) : Outcome :=
  let shown := (Lexeme.scan file source).filter Lexeme.isSignificant
  let lines := shown.map fun lexeme =>
    listingLine lexeme.span.start.render lexeme.token.spelling (listedLiteral lexeme.lit)
  let malformed := (shown.filter fun lexeme => lexeme.token.isMalformed).length
  let stdout := listingHead ++ String.join lines
  if malformed = 0 then { exit := 0, stdout }
  else
    { exit := 1, stdout
      stderr := file ++ ": " ++ toString malformed ++ " malformed token(s)\n" }

/-! ## Showing trees -/

/-- Show the tree of a program. -/
def showTree (format file : String) (source : List UInt8) : Outcome :=
  let trees := parseProgram 0 file source
  let found := Stmt.diagnostics trees
  { exit := if found.isEmpty then 0 else 1
    stdout :=
      if format == "json" then (Json.array (Stmt.jsons trees)).render
      else OutlineLine.renderAll (Stmt.outlines trees)
    stderr := diagnosticLines found }

/-! ## Running programs -/

/-- The exit code and the line for a report. -/
def reportLine (store : Store) (report : Report) : Nat × String :=
  match report.failure with
  | .crashed crash => (2, "panic: " ++ crash.message ++ "\n")
  | _ => (1, "error: " ++ report.message store ++ "\n")

/-- Install a plugin from a manifest. The result is the warnings, or the exit code and the line for what
failed. -/
def installPlugin (files : Files) (path : String) (session : Session) :
    Except (Nat × String) String × Session :=
  match files path with
  | none => (.error (1, "error: plugin: " ++ missingFile path ++ "\n"), session)
  | some bytes =>
      let text := Text.Rune.text (Text.Rune.decode bytes)
      let (loaded, store) := (Manifest.load text).run session.machine.store
      let session := { session with machine := { session.machine with store } }
      match loaded with
      | .error error => (.error (1, "error: " ++ path ++ ": " ++ error.message ++ "\n"), session)
      | .ok plugin =>
          match plugin.install session with
          | .ok skipped session =>
              let warnings := skipped.map fun name =>
                "warning: plugin " ++ plugin.name ++ ": " ++ name ++ " is already defined\n"
              (.ok (String.join warnings), session)
          | .error report session => (.error (reportLine session.machine.store report), session)

/-- Install plugins in order, until one fails. The first result is what was reported, with the exit code
if one failed. -/
def installPlugins (files : Files) (reported : String) :
    List String → Session → Except (Nat × String) String × Session
  | [], session => (.ok reported, session)
  | path :: rest, session =>
      match installPlugin files path session with
      | (.ok warnings, session) => installPlugins files (reported ++ warnings) rest session
      | (.error (exit, line), session) => (.error (exit, reported ++ line), session)

/-- Run something in a new session with plugins. The text of its value is printed if that is asked
for. -/
def runWith (files : Files) (plugins : List String) (action : SessionM Value)
    (printValue : Bool) : Outcome :=
  match installPlugins files "" plugins (Session.new Session.usualDepth (.text "") {}) with
  | (.error (exit, reported), session) => { exit, stdout := session.printed, stderr := reported }
  | (.ok reported, session) =>
      match action session with
      | .ok value session =>
          { exit := 0
            stdout := session.printed ++
              if printValue then session.machine.store.render value ++ "\n" else ""
            stderr := reported }
      | .error report session =>
          let (exit, line) := reportLine session.machine.store report
          { exit, stdout := session.printed, stderr := reported ++ line }

/-- Run a program, unless it is malformed. -/
def runProgram (files : Files) (plugins : List String) (file : String) (source : List UInt8) :
    Outcome :=
  let found := Stmt.diagnostics (parseProgram 0 file source)
  if found.isEmpty then runWith files plugins (Session.run file source) false
  else { exit := 1, stderr := diagnosticLines found }

/-- Evaluate an expression and print its value, unless it is malformed. -/
def runExpression (files : Files) (plugins : List String) (text : String) : Outcome :=
  let found := (parseExpression 0 text).diagnostics
  if found.isEmpty then runWith files plugins (Session.eval text) true
  else { exit := 1, stderr := diagnosticLines found }

/-- Do what options ask for. -/
def runOptions (files : Files) (options : Options) : Outcome :=
  if options.version then { exit := 0, stdout := "calx version " ++ versionNumber ++ "\n" }
  else if options.expression != "" then runExpression files options.plugins options.expression
  else
    match options.operands with
    | [] =>
        { exit := 1
          stderr := "error: no input file\nusage: calx [options] <file.calx>\n" }
    | file :: _ =>
        match files file with
        | none => failed (missingFile file)
        | some source =>
            if options.emitTokens then listTokens file source
            else if options.emitTree then showTree options.treeFormat file source
            else runProgram files options.plugins file source

/-- Do what a command line asks for. -/
def run (files : Files) (arguments : List String) : Outcome :=
  match Options.parse arguments with
  | .error error => error.outcome
  | .ok options => runOptions files options

end Reckon.CommandLine
