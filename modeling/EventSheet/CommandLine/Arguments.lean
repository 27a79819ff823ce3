import EventSheet.Signature

/-!
The arguments of the command line.

Options stand before the command or behind it. Those of the whole program may stand in either
place, and the later place wins; the others stand behind their command. An option has a long name,
and most a letter; its value follows as the next argument, or in the same one behind the letter or
an equals sign. No option may repeat in one place.
-/

set_option autoImplicit false

namespace EventSheet.CommandLine

/-! ## What is asked for -/

/-- How results are written. -/
inductive OutputFormat where
  | json
  | text
  | pretty
deriving DecidableEq, Repr, Inhabited

/-- The format of a name. -/
def OutputFormat.ofName? (s : String) : Option OutputFormat :=
  if s = "json" then some .json
  else if s = "text" then some .text
  else if s = "pretty" then some .pretty
  else none

/-- A command with its options. -/
inductive Command where
  /-- Check an expression tree, from a file or from standard input, with its text, the expected type
  and the scope. -/
  | validate (tree source : Option String) (expected : String) (scope : Option String)
  /-- List the functions of an owner. -/
  | functions (owner : Owner) (kind : Kind)
  /-- List the types of objects. -/
  | objects
deriving DecidableEq, Repr, Inhabited

/-- A command, and where its catalog is and how its result is written. -/
structure Invocation where
  /-- The directory of the catalog, if one is given. -/
  catalog : Option String
  /-- How the result is written. -/
  format : OutputFormat
  /-- The command. -/
  command : Command
deriving DecidableEq, Repr, Inhabited

/-- What arguments come to. -/
inductive Request where
  /-- A command is to be run. -/
  | run (invocation : Invocation)
  /-- The use of the program is to be explained. -/
  | help
  /-- The version of the program is to be told. -/
  | version
  /-- The arguments make no sense. -/
  | misuse
deriving DecidableEq, Repr, Inhabited

/-! ## Options -/

/-- Which values an option takes. -/
inductive ValueRule where
  /-- Any text. -/
  | anyText
  /-- A text that is not empty. -/
  | path
  /-- One of some names. -/
  | oneOf (names : List String)
deriving DecidableEq, Repr, Inhabited

/-- Whether an option takes a value. -/
def ValueRule.admits : ValueRule → String → Bool
  | .anyText, _ => true
  | .path, value => value ≠ ""
  | .oneOf names, value => value ∈ names

/-- An option with a value. -/
structure OptionRule where
  /-- Its long name. -/
  name : String
  /-- Its letter, if it has one. -/
  letter : Option Char
  /-- The values that it takes. -/
  values : ValueRule
deriving DecidableEq, Repr, Inhabited

/-- The options of the whole program. -/
def globalOptions : List OptionRule :=
  [⟨"catalog", none, .path⟩, ⟨"format", some 'o', .oneOf ["json", "text", "pretty"]⟩]

/-- The options of each command. -/
def commandOptions : List (String × List OptionRule) :=
  [("validate",
      [⟨"ast", some 'a', .path⟩, ⟨"source", some 's', .path⟩, ⟨"expected", some 'e', .anyText⟩,
        ⟨"scope", none, .path⟩]),
    ("functions",
      [⟨"object", none, .anyText⟩, ⟨"behavior", none, .anyText⟩,
        ⟨"kind", none, .oneOf ["expression", "action", "condition"]⟩]),
    ("objects", [])]

/-! ## Reading one place -/

/-- What an argument is, by its look. -/
inductive Look where
  /-- A long name, with a value behind an equals sign. -/
  | long (name : String) (value : Option String)
  /-- A letter, with what stands behind it. -/
  | letter (c : Char) (rest : List Char)
  /-- Two dashes: no options follow. -/
  | separator
  /-- Anything else. -/
  | word (text : String)
deriving DecidableEq, Repr

/-- What an argument is, by its look. -/
def Look.of (argument : String) : Look :=
  match argument.toList with
  | ['-', '-'] => .separator
  | '-' :: '-' :: cs =>
    let name := cs.takeWhile (· ≠ '=')
    match cs.drop name.length with
    | [] => .long (String.ofList name) none
    | _ :: value => .long (String.ofList name) (some (String.ofList value))
  | '-' :: c :: rest => .letter c rest
  | _ => .word argument

/-- The options that are given in one place, by long name. -/
abbrev Given := List (String × String)

/-- How reading a place ends. -/
inductive Ending where
  /-- No argument is left. -/
  | done (given : Given)
  /-- A word follows that belongs to no option. -/
  | word (given : Given) (text : String) (rest : List String)
  /-- Help is asked for. -/
  | help
  /-- The version is asked for. -/
  | version
  /-- The arguments make no sense. -/
  | misuse
deriving DecidableEq, Repr

/-- Notes the value of an option, unless it repeats or the option does not take the value. -/
def note (given : Given) (rule : OptionRule) (value : String) : Option Given :=
  if given.any fun g => g.1 = rule.name then none
  else if rule.values.admits value then some (given ++ [(rule.name, value)])
  else none

/-- Reads options up to the first word. The version can be asked for only before the command. -/
def readPlace (rules : List OptionRule) (hasVersion : Bool) (given : Given) :
    List String → Ending
  | [] => .done given
  | argument :: rest =>
    let withValue (rule : Option OptionRule) (value : Option String) : Ending :=
      match rule with
      | none => .misuse
      | some rule =>
        match value, rest with
        | some value, rest =>
          match note given rule value with
          | some given => readPlace rules hasVersion given rest
          | none => .misuse
        | none, value :: rest =>
          match Look.of value, note given rule value with
          | .word _, some given => readPlace rules hasVersion given rest
          | _, _ => .misuse
        | none, [] => .misuse
    match Look.of argument with
    | .separator => if rest.isEmpty then .done given else .misuse
    | .word text => .word given text rest
    | .long name value =>
      if name = "help" && value.isNone then .help
      else if name = "version" && value.isNone && hasVersion then .version
      else withValue (rules.find? fun rule => rule.name = name) value
    | .letter c behind =>
      if c = 'h' then .help
      else if c = 'V' && hasVersion then .version
      else
        let value :=
          match behind with
          | [] => none
          | '=' :: cs => some (String.ofList cs)
          | cs => some (String.ofList cs)
        withValue (rules.find? fun rule => rule.letter = some c) value

/-! ## Reading all arguments -/

/-- The value of an option, by long name. -/
def value? (given : Given) (name : String) : Option String :=
  (given.find? fun g => g.1 = name).map Prod.snd

/-- The command of a name with its options. An object and a behavior cannot both be asked for. -/
def command? (name : String) (given : Given) : Option Command :=
  if name = "validate" then
    some (.validate (value? given "ast") (value? given "source")
      ((value? given "expected").getD "unknown") (value? given "scope"))
  else if name = "functions" then
    match value? given "object", value? given "behavior" with
    | some _, some _ => none
    | object, behavior =>
      let kind := Kind.ofName? ((value? given "kind").getD "expression")
      kind.map (.functions (Owner.ofReceivers object behavior))
  else if name = "objects" then some .objects
  else none

/-- Puts the options of both places together. `catalogVariable` is the value of the environment for
the catalog, which counts in a place where no catalog is given, and has to be a path there. -/
def assemble (catalogVariable : Option String) (before : Given) (name : String) (behind : Given) :
    Request :=
  let isMisset (given : Given) : Bool :=
    catalogVariable = some "" && (value? given "catalog").isNone
  if isMisset before || isMisset behind then .misuse
  else
    let catalog := (value? behind "catalog").or ((value? before "catalog").or catalogVariable)
    let format := ((value? behind "format").or (value? before "format")).getD "pretty"
    match command? name behind, OutputFormat.ofName? format with
    | some command, some format => .run ⟨catalog, format, command⟩
    | _, _ => .misuse

/-- What arguments ask for. -/
def parse (catalogVariable : Option String) (arguments : List String) : Request :=
  match readPlace globalOptions true [] arguments with
  | .help => .help
  | .version => .version
  | .misuse => .misuse
  | .done _ => .misuse
  | .word before name rest =>
    match commandOptions.find? fun c => c.1 = name with
    | some (_, rules) =>
      match readPlace (rules ++ globalOptions) false [] rest with
      | .help => .help
      | .done behind => assemble catalogVariable before name behind
      | _ => .misuse
    | none =>
      if name = "help" then
        match rest with
        | [] => .help
        | [topic] =>
          if topic = "help" || commandOptions.any (fun c => c.1 = topic) then .help else .misuse
        | _ => .misuse
      else .misuse

end EventSheet.CommandLine
