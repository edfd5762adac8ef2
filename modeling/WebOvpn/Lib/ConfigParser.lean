/-
Sections of options, as `configparser` reads them, and lines with their ends.
-/
import WebOvpn.Lib.JsonParse
import WebOvpn.Lib.Lines

namespace WebOvpn

namespace Text

/-- `str.splitlines(keepends=True)`, with the characters of the unfinished line in reverse. -/
def keptLinesFrom (line : Text) : Text → List Text
  | [] => if line.isEmpty then [] else [line.reverse]
  | [c] => [(c :: line).reverse]
  | c :: d :: rest =>
    if c.val = 13 ∧ d.val = 10 then (d :: c :: line).reverse :: keptLinesFrom [] rest
    else if c.isLineBreak then (c :: line).reverse :: keptLinesFrom [] (d :: rest)
    else keptLinesFrom (c :: line) (d :: rest)

/-- `str.splitlines(keepends=True)`. -/
def keptLines (s : Text) : List Text := keptLinesFrom [] s

def decode (data : Bytes) : Option Text := (decodeUtf8 data).map fun chars => chars.map CodePoint.ofChar

def splitAtFirst (p : CodePoint → Bool) : Text → Option (Text × Text)
  | [] => none
  | c :: rest => if p c then some ([], rest) else (splitAtFirst p rest).map fun parts =>
    (c :: parts.1, parts.2)

end Text

namespace ConfigParser

open Text

def isChar (c : Char) (point : CodePoint) : Bool := point = CodePoint.ofChar c

/-- How a parser is set up: what it makes of the name of an option, and the
section whose options every section has. -/
structure Setup where
  optionxform : Text → Text
  defaultSection : Text

abbrev OptionLines := Text × List Text

/-- What `configparser` knows while it reads; `broken` is an error that it
raises at the end. -/
structure ParserState where
  sections : List (Text × List OptionLines)
  current : Option Text
  option : Option Text
  indent : Nat
  broken : Bool

def appendLine (value : Text) (current option : Text) (sections : List (Text × List OptionLines)) :
    List (Text × List OptionLines) :=
  sections.map fun part =>
    if part.1 = current then
      (part.1, part.2.map fun entry => if entry.1 = option then (entry.1, entry.2 ++ [value]) else entry)
    else part

/-- The header of a section, `\[(?P<header>.+)\]` at the start of a line. -/
def sectionHeader : Text → Option Text
  | [] => none
  | c :: rest =>
    if isChar '[' c then
      match (rest.reverse.dropWhile fun c => !isChar ']' c).tail.reverse with
      | [] => none
      | header => some header
    else none

/-- The section and the option that a line may continue. -/
def ParserState.open? (state : ParserState) : Option (Text × Text) :=
  match state.current, state.option with
  | some current, some option => if option.isEmpty then none else some (current, option)
  | _, _ => none

variable (setup : Setup)

/-- A line with an option. `none` is a `DuplicateOptionError`. -/
def readOption (state : ParserState) (current value : Text) : Option ParserState :=
  match splitAtFirst (fun c => isChar '=' c || isChar ':' c) value with
  | none => some { state with broken := true }
  | some (name, content) =>
    let name := setup.optionxform (rstrip name)
    if ((state.sections.lookup current).getD []).any fun entry => entry.1 = name then none
    else
      some { state with
        sections := state.sections.map fun part =>
          if part.1 = current then (part.1, part.2 ++ [(name, [strip content])]) else part
        option := some name
        broken := state.broken || name.isEmpty }

/-- A line that continues no value. `none` is an error that is raised at once. -/
def readHeading (state : ParserState) (value : Text) : Option ParserState :=
  match sectionHeader value, state.current with
  | some header, _ =>
    if header ∈ state.sections.map Prod.fst then
      if header = setup.defaultSection then some { state with current := some header, option := none } else none
    else some { state with sections := state.sections ++ [(header, [])], current := some header, option := none }
  | none, none => none
  | none, some current => readOption setup state current value

def readLine (state : ParserState) (line : Text) : Option ParserState :=
  let comment := (strip line).head?.any fun c => isChar '#' c || isChar ';' c
  let value := if comment then [] else strip line
  if value.isEmpty then
    match state.open? with
    | some (current, option) =>
      if comment then some state else some { state with sections := appendLine [] current option state.sections }
    | none => some state
  else
    let indent := (line.takeWhile CodePoint.isSpace).length
    match state.open? with
    | some (current, option) =>
      if state.indent <
        indent then some { state with sections := appendLine value current option state.sections }
      else readHeading setup { state with indent := indent } value
    | none => readHeading setup { state with indent := indent } value

def streamLines (content : Text) : List Text :=
  let lines := content.splitOn (CodePoint.ofChar '\n')
  if lines.getLast? = some [] then lines.dropLast else lines

abbrev Sections := List (Text × List (Text × Text))

/-- `parser.read_string`. `none` is a `configparser.Error`. -/
def parseSections (content : Text) : Option Sections :=
  match (streamLines content).foldlM (readLine setup) ⟨[], none, none, 0, false⟩ with
  | none => none
  | some state =>
    if state.broken then none
    else some (state.sections.map fun part => (part.1, part.2.map fun entry =>
      (entry.1, rstrip ([CodePoint.ofChar '\n'].intercalate entry.2))))

/-- `parser.get(section, option)` of a section that exists, with the default section. -/
def Sections.get? (sections : Sections) (heading option : Text) : Option Text :=
  (sections.lookup heading).bind fun options =>
    (options.lookup option).or
      ((sections.lookup setup.defaultSection).bind fun defaults => defaults.lookup option)

end ConfigParser

end WebOvpn
