import GuidedTour.Number.Numeral
import GuidedTour.Json.Record

namespace GuidedTour

/-!
# Command lines

* `Command` — what the program is told to do;
* `Command.ofArguments` — the command in some arguments. Reading stops at the first fault, and at
  the first wish for help or for the version.
-/

/-- What the program is told to do. -/
inductive Command where
  | generate (root : String) (title : Option String) (limit maxSteps : Option Nat)
    (model baseUrl config : Option String) (dryRun strictLines : Bool)
  | discover (root : String) (limit : Option Nat) (config : Option String)
  | analyze (file : String) (language : Option String)
  deriving DecidableEq, Repr

/-- Why there is no command in the arguments. -/
inductive Usage where
  | help
  | version
  | misuse
  deriving DecidableEq, Repr

/-- What an option takes. -/
inductive OptionKind where
  | switch
  | number
  | path
  | text
  deriving DecidableEq, Repr

/-- The natural number that an argument spells. -/
def numberArgument? (s : String) : Option Nat :=
  (Numeral.readInt 0 natMax64 s.toList).map Int.toNat

namespace OptionKind

/-- Whether an option can take a value. -/
def accepts : OptionKind → String → Bool
  | switch, _ => false
  | number, s => (numberArgument? s).isSome
  | path, s => !s.isEmpty
  | text, _ => true

end OptionKind

/-- Options by name. -/
abbrev OptionTable := List (String × OptionKind)

/-- Options that may stand anywhere. -/
def globalOptions : OptionTable := [("verbose", .switch), ("quiet", .switch)]

/-- The subcommands with their options. -/
def subcommands : List (String × OptionTable) := [
  ("generate", [("title", .text), ("limit", .number), ("max-steps", .number), ("model", .text),
    ("base-url", .text), ("config", .path), ("dry-run", .switch), ("strict-lines", .switch)] ++
    globalOptions),
  ("discover", [("limit", .number), ("config", .path)] ++ globalOptions),
  ("analyze", [("language", .text)] ++ globalOptions)]

/-- What was given after a subcommand. -/
structure Given where
  options : List (String × String)
  positional : Option String

namespace Given

/-- The value of an option. -/
def get? (g : Given) (name : String) : Option String := g.options.lookup name

/-- One more option, which may be given only once. -/
def add (g : Given) (kind : OptionKind) (name value : String) : Except Usage Given :=
  if (g.get? name).isSome then .error .misuse
  else if kind == .switch || kind.accepts value then
    .ok { g with options := (name, value) :: g.options }
  else .error .misuse

/-- A positional argument. There is only one, and it is a path. -/
def place (g : Given) (s : String) : Except Usage Given :=
  if g.positional.isSome || s.isEmpty then .error .misuse else .ok { g with positional := some s }

/-- The switches that letters stand for. -/
def addLetters (g : Given) : List Char → Except Usage Given
  | [] => .ok g
  | c :: rest =>
    if c == 'h' then .error .help
    else if c == 'v' then (g.add .switch "verbose" "").bind fun g => g.addLetters rest
    else .error .misuse

end Given

/-- Whether an argument is an option and no value: it begins with a dash and is longer than that. -/
def looksLikeOption (s : String) : Bool := s.startsWith "-" && s != "-"

/-- The name and, behind an equals sign, the value of a long option. -/
def longOption? (s : String) : Option (String × Option String) :=
  match s.toList with
  | '-' :: '-' :: rest =>
    let name := String.ofList (rest.takeWhile (· != '='))
    match rest.dropWhile (· != '=') with
    | '=' :: value => some (name, some (String.ofList value))
    | _ => some (name, none)
  | _ => none

/-- The arguments of a subcommand. After two dashes nothing is an option. -/
def readArguments (options : OptionTable) (g : Given) (onlyValues : Bool) :
    List String → Except Usage Given
  | [] => .ok g
  | s :: rest =>
    if onlyValues || !looksLikeOption s then
      (g.place s).bind fun g => readArguments options g onlyValues rest
    else if s == "--" then readArguments options g true rest
    else match longOption? s with
      | none => (g.addLetters (s.toList.drop 1)).bind fun g => readArguments options g false rest
      | some ("help", none) => .error .help
      | some (name, attached) =>
        match options.lookup name, attached with
        | none, _ => .error .misuse
        | some .switch, some _ => .error .misuse
        | some .switch, none =>
          (g.add .switch name "").bind fun g => readArguments options g false rest
        | some kind, some value =>
          (g.add kind name value).bind fun g => readArguments options g false rest
        | some kind, none =>
          match rest with
          | value :: rest =>
            if looksLikeOption value then .error .misuse
            else (g.add kind name value).bind fun g => readArguments options g false rest
          | [] => .error .misuse

namespace Command

/-- The command that a subcommand and its arguments make. -/
def ofGiven (name : String) (g : Given) : Except Usage Command :=
  let number (option : String) : Option Nat := (g.get? option).bind numberArgument?
  let isSet (option : String) : Bool := (g.get? option).isSome
  let root := g.positional.getD "."
  if name == "generate" then
    .ok (.generate root (g.get? "title") (number "limit") (number "max-steps") (g.get? "model")
      (g.get? "base-url") (g.get? "config") (isSet "dry-run") (isSet "strict-lines"))
  else if name == "discover" then .ok (.discover root (number "limit") (g.get? "config"))
  else match g.positional with
    | some file => .ok (.analyze file (g.get? "language"))
    | none => .error .misuse

/-- What a wish for help about subcommands comes to. -/
def helpOn : List String → Usage
  | [] => .help
  | [name] => if (subcommands.lookup name).isSome || name == "help" then .help else .misuse
  | _ => .misuse

/-- The command in arguments; `seen` holds the switches before the subcommand. -/
def read (seen : Given) : List String → Except Usage Command
  | [] => .error .misuse
  | s :: rest =>
    if looksLikeOption s then
      match longOption? s with
      | some ("help", none) => .error .help
      | some ("version", none) => .error .version
      | some (name, none) =>
        if (globalOptions.lookup name).isSome then
          (seen.add .switch name "").bind fun seen => read seen rest
        else .error .misuse
      | some _ => .error .misuse
      | none =>
        if s == "-V" then .error .version
        else (seen.addLetters (s.toList.drop 1)).bind fun seen => read seen rest
    else if s == "help" then .error (helpOn rest)
    else match subcommands.lookup s with
      | none => .error .misuse
      | some options => (readArguments options ⟨[], none⟩ false rest).bind (ofGiven s)

/-- The command in arguments. -/
def ofArguments (arguments : List String) : Except Usage Command := read ⟨[], none⟩ arguments

end Command

end GuidedTour
