import StyleBundler.Build

/-!
Reading the arguments of a command. Parameters stand before or after the command's name
if it knows them, and those that it shares with the program may be given on both levels.
A value is attached to its parameter or follows it; it is filed, and only then checked,
when the next parameter starts or the level ends. Behind `--` everything is a positional
argument.
-/

namespace StyleBundler.CommandLine

/-- Why arguments are not taken, or what they ask for instead of a run. -/
inductive UsageNotice where
  | help
  | helpOnMissingArguments
  | version
  | missingCommand
  | unknownCommand
  | unknownArgument
  | missingArgument
  /-- A parameter without its value, or with an empty one. -/
  | missingValue
  | malformedValue
  | repeatedArgument
  /-- A switch with a value. -/
  | surplusValue
deriving DecidableEq, Repr, Inhabited

inductive Parameter where
  | verbose
  | config
  | help
  | version
  | outputDirectory
  | bundle
  | print
  /-- The positional argument. -/
  | module
deriving DecidableEq, Repr, Inhabited

namespace Parameter

def letter? : Parameter → Option Char
  | .verbose => some 'v'
  | .config => some 'c'
  | .help => some 'h'
  | .version => some 'V'
  | .outputDirectory => some 'o'
  | .bundle => some 'b'
  | .print => some 'p'
  | .module => none

def longName? : Parameter → Option String
  | .verbose => some "verbose"
  | .config => some "config"
  | .help => some "help"
  | .version => some "version"
  | .outputDirectory => some "outdir"
  | .bundle => some "bundle"
  | .print => some "print"
  | .module => none

def takesValue : Parameter → Bool
  | .config | .outputDirectory | .bundle | .module => true
  | .verbose | .help | .version | .print => false

/-- What is wrong with a value. -/
def objection? : Parameter → String → Option UsageNotice
  | .outputDirectory, value | .module, value =>
      if value.isEmpty then some .missingValue else none
  | .bundle, value => if (PackMode.ofText? value).isSome then none else some .malformedValue
  | _, _ => none

end Parameter

inductive CommandName where
  | build
  | check
deriving DecidableEq, Repr, Inhabited

/-- The level of the program, or of one of its commands. -/
abbrev Level := Option CommandName

namespace Level

def parameters : Level → List Parameter
  | none => [.verbose, .config, .help, .version]
  | some .build => [.outputDirectory, .bundle, .verbose, .config, .help, .version]
  | some .check => [.print, .verbose, .config, .help, .version]

def withLetter? (l : Level) (c : Char) : Option Parameter :=
  l.parameters.find? (·.letter? == some c)

def named? (l : Level) (name : String) : Option Parameter :=
  l.parameters.find? (·.longName? == some name)

end Level

/-- What has been read of one level. -/
structure Reading where
  /-- The parameters that were filed, with their values; a switch has an empty one. -/
  found : List (Parameter × String)
  /-- The parameter that is not filed yet, with its value once that is there. -/
  pending : Option (Parameter × Option String)
deriving DecidableEq, Repr, Inhabited

namespace Reading

def empty : Reading := ⟨[], none⟩

def value? (r : Reading) (p : Parameter) : Option String := r.found.lookup p

def has (r : Reading) (p : Parameter) : Bool := (r.value? p).isSome

/-- A parameter still waits for its value. -/
def isWaiting (r : Reading) : Bool :=
  match r.pending with
  | some (_, none) => true
  | _ => false

/-- The positional argument is there, filed or not. -/
def hasModule (r : Reading) : Bool :=
  r.has .module || r.pending.any fun (p, _) => p == .module

/-- Files a parameter. -/
def file (r : Reading) (p : Parameter) (value? : Option String) :
    Except UsageNotice Reading :=
  if p.takesValue && value?.isNone then .error .missingValue
  else if p = .help then .error .help
  else if p = .version then .error .version
  else if r.has p then .error .repeatedArgument
  else
    let value := value?.getD ""
    match p.objection? value with
    | some notice => .error notice
    | none => .ok { r with found := r.found ++ [(p, value)] }

/-- Files the parameter that is not filed yet. -/
def settle (r : Reading) : Except UsageNotice Reading :=
  match r.pending with
  | none => .ok r
  | some (p, value?) => ({ r with pending := none } : Reading).file p value?

/-- Settles, and files another parameter. -/
def take (r : Reading) (p : Parameter) (value? : Option String) :
    Except UsageNotice Reading := do
  (← r.settle).file p value?

/-- Settles, and leaves another parameter for later. -/
def postpone (r : Reading) (p : Parameter) (value? : Option String) :
    Except UsageNotice Reading := do
  .ok { ← r.settle with pending := some (p, value?) }

/-- Takes a parameter that may have its value attached. -/
def takeOption (r : Reading) (p : Parameter) (attached : Option String) :
    Except UsageNotice Reading :=
  match attached with
  | some value => r.take p (some value)
  | none => r.postpone p none

end Reading

/-- Reads the letters behind a dash. What follows the letter of a parameter with a value
is that value, an equals sign aside. -/
def readLetters (l : Level) (r : Reading) : List Char → Except UsageNotice Reading
  | [] => .ok r
  | c :: cs =>
      match l.withLetter? c with
      | none => .error .unknownArgument
      | some p =>
          if p.takesValue then
            match cs with
            | [] => r.takeOption p none
            | '=' :: value => r.takeOption p (some (String.ofList value))
            | value => r.takeOption p (some (String.ofList value))
          else do readLetters l (← r.take p none) cs

/-- Reads what stands behind two dashes. -/
def readLong (l : Level) (r : Reading) (cs : List Char) : Except UsageNotice Reading :=
  let name := String.ofList (cs.takeWhile (· != '='))
  let attached :=
    match cs.dropWhile (· != '=') with
    | [] => none
    | _ :: value => some (String.ofList value)
  match l.named? name with
  | none => .error .unknownArgument
  | some p =>
      if p.takesValue then r.takeOption p attached
      else if attached.isSome then .error .surplusValue
      else r.take p none

def commandNamed? (s : String) : Option CommandName :=
  if s = "build" then some .build
  else if s = "check" then some .check
  else none

def helpName : String := "help"

/-- A name that the program itself knows at its own level. -/
def isCommandWord (s : String) : Bool := (commandNamed? s).isSome || s == helpName

/-- Reads a positional argument; `closed` says that it stands behind `--`. -/
def readPositional (l : Level) (closed : Bool) (r : Reading) (s : String) :
    Except UsageNotice Reading :=
  match l with
  | none => .error (if closed && isCommandWord s then .unknownArgument else .unknownCommand)
  | some .build => .error .unknownArgument
  | some .check =>
      if r.hasModule then .error .unknownArgument else r.postpone .module (some s)

/-- Reads what starts without a dash, or stands behind `--`: the value of a parameter that
waits for it, or a positional argument. -/
def readPlain (l : Level) (closed : Bool) (r : Reading) (s : String) :
    Except UsageNotice Reading :=
  match r.pending, closed with
  | some (p, none), false => .ok { r with pending := some (p, some s) }
  | _, _ => readPositional l closed r s

/-- Reads an argument of a level that does not name a command. -/
def readArgument (l : Level) (closed : Bool) (r : Reading) (s : String) :
    Except UsageNotice Reading :=
  match closed, s.toList with
  | false, '-' :: '-' :: cs => readLong l r cs
  | false, '-' :: c :: cs => readLetters l r (c :: cs)
  | _, _ => readPlain l closed r s

/-- What the arguments behind the word `help` ask for. -/
def helpNotice : List String → UsageNotice
  | [] => .help
  | [name] => if isCommandWord name then .help else .unknownCommand
  | _ => .unknownCommand

/-- Reads the arguments of a level, up to the name of a command. -/
def readLevel (l : Level) (closed : Bool) (r : Reading) :
    List String → Except UsageNotice (Reading × Option (CommandName × List String))
  | [] => .ok (r, none)
  | s :: rest =>
      let word := l.isNone && !closed && !r.isWaiting
      if word && s == helpName then .error (helpNotice rest)
      else
        match if word then commandNamed? s else none with
        | some command => .ok (r, some (command, rest))
        | none =>
            if !closed && s == "--" then readLevel l true r rest
            else do readLevel l closed (← readArgument l closed r s) rest

inductive Command where
  | build (options : BuildRequest)
  /-- Report on one module; `print` asks for its code after the hooks as well. -/
  | check (module : Path) (print : Bool)
deriving DecidableEq, Repr, Inhabited

structure Invocation where
  verbose : Bool
  /-- The path of the configuration file. -/
  config : Path
  command : Command
deriving DecidableEq, Repr, Inhabited

def defaultConfig : String := "sheetpack.toml"

/-- The command that a level's parameters make up. -/
def command (r : Reading) : CommandName → Except UsageNotice Command
  | .build =>
      .ok (.build ⟨(r.value? .outputDirectory).map Path.mk,
        (r.value? .bundle).bind PackMode.ofText?⟩)
  | .check =>
      match r.value? .module with
      | some path => .ok (.check ⟨path⟩ (r.has .print))
      | none => .error .missingArgument

/-- Reads all arguments of the program. -/
def parse (args : List String) : Except UsageNotice Invocation := do
  let (outer, next) ← readLevel none false .empty args
  match next with
  | none =>
      let outer ← outer.settle
      .error (if outer.found.isEmpty then .helpOnMissingArguments else .missingCommand)
  | some (name, rest) =>
      let (inner, _) ← readLevel (some name) false .empty rest
      let inner ← inner.settle
      let command ← command inner name
      let outer ← outer.settle
      let config := ((inner.value? .config).or (outer.value? .config)).getD defaultConfig
      .ok ⟨inner.has .verbose || outer.has .verbose, ⟨config⟩, command⟩

end StyleBundler.CommandLine
