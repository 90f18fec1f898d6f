import ProtoDocs.Element.Basic
import ProtoDocs.Files.Path

/-!
# Arguments

The arguments name a kind of type and a type, and may choose the schema file, the settings file and
the documents directory. An option has a long and perhaps a short form; its value is the next argument
or is attached. Options that do not concern one kind of type may stand on either side of it; given on
both sides, the later one counts.

* `Request`             what the arguments ask for;
* `UsageError`          why they ask for nothing, with its message;
* `Request.ofArguments` reads the arguments.
-/

namespace ProtoDocs

structure Query where
  kind : Kind
  name : Text
  file : Option Path
  deriving DecidableEq, Repr

/-- where to look for schema files -/
structure Places where
  settings : Option Path
  docsDir : Option Path
  deriving DecidableEq, Repr

inductive Request
  | version
  | help
  | table (query : Query) (places : Places)
  deriving DecidableEq, Repr

inductive UsageError
  | noCommand
  | unknownCommand (word : Text)
  | noName
  | surplus (word : Text)
  | unknownOption (word : Text)
  | noValue (option : Text)
  | unwantedValue (option : Text)
  | repeated (option : Text)
  deriving DecidableEq, Repr

/-- the error in words, which are this model's own and not those of the program -/
def UsageError.message : UsageError → Text
  | noCommand => "one of the commands message, enum and service is required".toList
  | unknownCommand word => "unknown command ".toList ++ word
  | noName => "a name is required".toList
  | surplus word => "unexpected argument ".toList ++ word
  | unknownOption word => "unknown option ".toList ++ word
  | noValue option => "a value is required for ".toList ++ option
  | unwantedValue option => option ++ " takes no value".toList
  | repeated option => option ++ " can be given only once".toList

/-! ## options -/

inductive Switch
  | settings | docsDir | file | verbose | help | version
  deriving DecidableEq, Repr

inductive CommandSide
  | before | after
  deriving DecidableEq, Repr

namespace Switch

def long : Switch → Text
  | settings => "--config".toList
  | docsDir => "--docs-dir".toList
  | file => "--proto".toList
  | verbose => "--verbose".toList
  | help => "--help".toList
  | version => "--version".toList

def short? : Switch → Option Char
  | settings => some 'c'
  | docsDir => none
  | file => some 'p'
  | verbose => some 'v'
  | help => some 'h'
  | version => some 'V'

def allowed : CommandSide → List Switch
  | .before => [settings, docsDir, verbose, help, version]
  | .after => [settings, docsDir, file, verbose, help]

def takesValue : Switch → Bool
  | settings | docsDir | file => true
  | verbose | help | version => false

end Switch

/-- what the arguments on one side of the command said so far -/
structure Given where
  settings : Option Path := none
  docsDir : Option Path := none
  file : Option Path := none
  verbose : Bool := false
  name : Option Text := none

namespace Given

/-- an option with its value; directories and settings files must have a name -/
def set (g : Given) (s : Switch) (v : Text) : Except UsageError Given :=
  match s with
  | .settings =>
    if g.settings.isSome then .error (.repeated s.long)
    else if v.isEmpty then .error (.noValue s.long)
    else .ok { g with settings := some v }
  | .docsDir =>
    if g.docsDir.isSome then .error (.repeated s.long)
    else if v.isEmpty then .error (.noValue s.long)
    else .ok { g with docsDir := some v }
  | .file =>
    if g.file.isSome then .error (.repeated s.long) else .ok { g with file := some v }
  | .verbose =>
    if g.verbose then .error (.repeated s.long) else .ok { g with verbose := true }
  | .help | .version => .ok g

end Given

namespace Arguments

/-- what an argument with options in it comes to -/
inductive OptionResult
  | given (g : Given)
  | stop (r : Request)
  /-- the value is the next argument -/
  | awaits (g : Given) (s : Switch)

/-- an option without value -/
def flag (g : Given) (s : Switch) : Except UsageError OptionResult :=
  match s with
  | .help => .ok (.stop .help)
  | .version => .ok (.stop .version)
  | s => do
    let g ← g.set s []
    return .given g

/-- an option in its long form, perhaps with a value behind an equals sign -/
def longOption (side : CommandSide) (g : Given) (arg : Text) : Except UsageError OptionResult :=
  let name := arg.takeWhile (· != '=')
  let value := arg.drop name.length
  match (Switch.allowed side).find? (·.long == name) with
  | none => .error (.unknownOption name)
  | some s =>
    if s.takesValue then match value with
      | [] => .ok (.awaits g s)
      | _ :: v => do
        let g ← g.set s v
        return .given g
    else if value.isEmpty then flag g s
    else .error (.unwantedValue s.long)

/-- options in their short form, one behind the other; a value may follow directly or behind an equals
sign -/
def shortOptions (side : CommandSide) (g : Given) : Text → Except UsageError OptionResult
  | [] => .ok (.given g)
  | c :: t =>
    match (Switch.allowed side).find? (·.short? == some c) with
    | none => .error (.unknownOption ['-', c])
    | some s =>
      if s.takesValue then match t with
        | [] => .ok (.awaits g s)
        | '=' :: v => do
          let g ← g.set s v
          return .given g
        | v => do
          let g ← g.set s v
          return .given g
      else do
        match ← flag g s with
        | .given g => shortOptions side g t
        | r => return r

/-! ## arguments -/

def isOption : Text → Bool
  | '-' :: _ :: _ => true
  | _ => false

/-- what the arguments on one side come to -/
inductive Reading
  | stop (r : Request)
  | ended (g : Given)
  | command (word : Text) (g : Given) (rest : List Text)

/-- arguments that are no options, behind a double dash -/
def readPlain (side : CommandSide) (g : Given) : List Text → Except UsageError Reading
  | [] => .ok (.ended g)
  | a :: rest =>
    if side = .before ∨ g.name.isSome then .error (.surplus a)
    else readPlain side { g with name := some a } rest

def readArguments (side : CommandSide) (g : Given) : List Text → Except UsageError Reading
  | [] => .ok (.ended g)
  | ['-', '-'] :: rest => readPlain side g rest
  | a :: rest =>
    if isOption a then do
      let r ← match a with
        | '-' :: '-' :: _ => longOption side g a
        | _ => shortOptions side g (a.drop 1)
      match r with
      | .stop r => return .stop r
      | .given g => readArguments side g rest
      | .awaits g s => match rest with
        | [] => .error (.noValue s.long)
        | v :: rest =>
          if isOption v then .error (.noValue s.long)
          else do
            let g ← g.set s v
            readArguments side g rest
    else match side with
      | .before => .ok (.command a g rest)
      | .after =>
        if g.name.isSome then .error (.surplus a)
        else readArguments side { g with name := some a } rest

end Arguments

open Arguments

def kindOfCommand? (word : Text) : Option Kind :=
  if word = "message".toList then some .message
  else if word = "enum".toList then some .enum
  else if word = "service".toList then some .service
  else none

def Request.ofArguments (args : List Text) : Except UsageError Request := do
  match ← readArguments .before {} args with
  | .stop r => return r
  | .ended _ => .error .noCommand
  | .command word outer rest =>
    match kindOfCommand? word with
    | none =>
      if word = "help".toList then return .help else .error (.unknownCommand word)
    | some kind =>
      match ← readArguments .after {} rest with
      | .stop r => return r
      | .command word _ _ => .error (.surplus word)
      | .ended inner =>
        match inner.name with
        | none => .error .noName
        | some name =>
          return .table ⟨kind, name, inner.file⟩
            ⟨inner.settings.or outer.settings, inner.docsDir.or outer.docsDir⟩

end ProtoDocs
