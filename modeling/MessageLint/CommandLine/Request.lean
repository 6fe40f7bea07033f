-- SUMMARY: What the arguments of a run ask for.

/-!
# Requests

Arguments name a subcommand and options. An option is written with two dashes or, where it has a
letter, with one; letters may be run together. Its value follows as the next argument, behind an
equals sign, or directly behind the letter. What stands behind `--` is no option. Options are looked
at in order, and the first fault, or the first question for help or the version, decides (`Stop`). A
value that is an argument of its own is looked at with what follows it, so help on a subcommand can
still be asked for behind a faulty one.
-/

namespace MessageLint.CommandLine

inductive Subcommand where
  | check
  | listRules
  | init
  deriving DecidableEq, Repr, Inhabited

def Subcommand.all : List Subcommand := [.check, .listRules, .init]

def Subcommand.name : Subcommand → String
  | .check => "check"
  | .listRules => "list-rules"
  | .init => "init"

inductive OutputFormat where
  | text
  | json
  | compact
  deriving DecidableEq, Repr, Inhabited

def OutputFormat.ofName? : String → Option OutputFormat
  | "text" => some .text
  | "json" => some .json
  | "compact" => some .compact
  | _ => none

/-- What is to be checked, and how. -/
structure CheckOptions where
  /-- The configuration file that is given, if one is. -/
  settings : Option String
  root : String
  format : OutputFormat
  /-- The rules to report, separated by commas. -/
  rules : Option String
  exclude : List String
  deriving DecidableEq, Repr, Inhabited

inductive Request where
  | check (options : CheckOptions)
  | listRules
  | init (force : Bool)
  /-- Help on a subcommand, or on the whole. -/
  | help (of : Option Subcommand) (isLong : Bool)
  /-- Help on asking for help. -/
  | helpOnHelp
  | version
  deriving DecidableEq, Repr, Inhabited

-- ---------------------------------------------------------------------------
-- Options
-- ---------------------------------------------------------------------------

inductive Opt where
  | help
  | version
  | verbose
  | config
  | format
  | rules
  | exclude
  | force
  deriving DecidableEq, Repr, Inhabited

namespace Opt

def long : Opt → String
  | help => "help"
  | version => "version"
  | verbose => "verbose"
  | config => "config"
  | format => "format"
  | rules => "rules"
  | exclude => "exclude"
  | force => "force"

def letter : Opt → Option Char
  | help => some 'h'
  | version => some 'V'
  | verbose => some 'v'
  | config => some 'c'
  | format => some 'f'
  | exclude => some 'e'
  | rules | force => none

def takesValue : Opt → Bool
  | config | format | rules | exclude => true
  | help | version | verbose | force => false

/-- Whether the option may be given more than once. -/
def isRepeatable : Opt → Bool
  | exclude => true
  | _ => false

/-- Whether the option takes this value. -/
def accepts (o : Opt) (value : String) : Bool :=
  match o with
  | config => !value.isEmpty
  | format => (OutputFormat.ofName? value).isSome
  | _ => true

/-- The options of a subcommand, or those in front of it, in the order that help lists them. -/
def of : Option Subcommand → List Opt
  | none => [verbose, config, help, version]
  | some .check => [format, verbose, config, rules, exclude, help]
  | some .listRules => [verbose, config, help]
  | some .init => [force, verbose, config, help]

end Opt

-- ---------------------------------------------------------------------------
-- Reading arguments
-- ---------------------------------------------------------------------------

/-- Why the reading of arguments ends early. -/
inductive Stop where
  | usage
  | answer (r : Request)

/-- The options given so far, with their values, and the path. -/
structure Given where
  options : List (Opt × String)
  /-- The option last given, while its value, an argument of its own, is not looked at yet. -/
  held : Option (Opt × String)
  path : Option String
  deriving Inhabited

namespace Given

def nothing : Given := ⟨[], none, none⟩

def value? (g : Given) (o : Opt) : Option String := g.options.lookup o

def has (g : Given) (o : Opt) : Bool := (g.value? o).isSome

/-- Puts an option among those given, if it takes the value and may be given here. -/
def record (g : Given) (o : Opt) (value : String) : Except Stop Given :=
  if o.accepts value && (o.isRepeatable || !g.has o) then
    .ok { g with options := g.options ++ [(o, value)] }
  else
    .error .usage

/-- Looks at the option that is held, if there is one. -/
def settle (g : Given) : Except Stop Given :=
  match g.held with
  | none => .ok g
  | some (o, value) => { g with held := none }.record o value

/-- Adds an option; one without a value has the empty text. -/
def add (level : Option Subcommand) (isLong : Bool) (g : Given) (o : Opt) (value : String) :
    Except Stop Given := do
  let g ← g.settle
  match o with
  | .help => throw (.answer (.help level isLong))
  | .version => throw (.answer .version)
  | _ => g.record o value

/-- Adds an argument that is no option: only a check takes one, its path. -/
def addPath (level : Option Subcommand) (g : Given) (arg : String) : Except Stop Given := do
  let g ← g.settle
  if level = some .check && g.path.isNone && !arg.isEmpty then
    return { g with path := some arg }
  else
    throw .usage

/-- Adds the options of a run of letters; one may be left to wait for its value. -/
def addLetters (level : Option Subcommand) (g : Given) :
    List Char → Except Stop (Given × Option Opt)
  | [] => .ok (g, none)
  | c :: cs =>
    match (Opt.of level).find? (·.letter = some c) with
    | none => .error .usage
    | some o =>
      if o.takesValue then
        match cs with
        | [] => g.settle.map (·, some o)
        | '=' :: value | value => (g.add level false o (String.ofList value)).map (·, none)
      else
        match g.add level false o "" with
        | .ok g => addLetters level g cs
        | .error stop => .error stop

/-- Adds an option by its name and the text behind the equals sign, if there is one. -/
def addLong (level : Option Subcommand) (g : Given) (name : String) (value : Option String) :
    Except Stop (Given × Option Opt) :=
  match (Opt.of level).find? (·.long = name) with
  | none => .error .usage
  | some o =>
    match o.takesValue, value with
    | true, some value => (g.add level true o value).map (·, none)
    | true, none => g.settle.map (·, some o)
    | false, some _ => .error .usage
    | false, none => (g.add level true o "").map (·, none)

end Given

/-- An argument by the dashes in front of it. -/
inductive Word where
  | escape
  | long (name : String) (value : Option String)
  | letters (cs : List Char)
  | plain
  deriving DecidableEq, Repr

def Word.of (arg : String) : Word :=
  match arg.toList with
  | ['-', '-'] => .escape
  | '-' :: '-' :: cs =>
    let name := String.ofList (cs.takeWhile (· ≠ '='))
    match cs.dropWhile (· ≠ '=') with
    | _ :: value => .long name (some (String.ofList value))
    | [] => .long name none
  | '-' :: c :: cs => .letters (c :: cs)
  | _ => .plain

/-- The request for help on what follows the word `help`. -/
def helpOn : List String → Stop
  | [] => .answer (.help none true)
  | [name] =>
    match Subcommand.all.find? (·.name = name) with
    | some sub => .answer (.help (some sub) true)
    | none => if name = "help" then .answer .helpOnHelp else .usage
  | _ => .usage

/-- Reads arguments up to the name of a subcommand, in front of which an option may still be held,
or, behind it, to their end. `pending` is an option that waits for its value. -/
def readFrom (level : Option Subcommand) (g : Given) (pending : Option Opt) :
    List String → Except Stop (Given × Option (Subcommand × List String))
  | [] => if pending.isSome then .error .usage else g.settle.map (·, none)
  | arg :: args =>
    match pending, Word.of arg with
    | some o, .plain => readFrom level { g with held := some (o, arg) } none args
    | some _, _ => .error .usage
    | none, .escape => (args.foldlM (Given.addPath level) g >>= Given.settle).map (·, none)
    | none, .long name value =>
      match g.addLong level name value with
      | .ok (g, pending) => readFrom level g pending args
      | .error stop => .error stop
    | none, .letters cs =>
      match g.addLetters level cs with
      | .ok (g, pending) => readFrom level g pending args
      | .error stop => .error stop
    | none, .plain =>
      if level.isNone then
        match Subcommand.all.find? (·.name = arg) with
        | some sub => .ok (g, some (sub, args))
        | none => .error (if arg = "help" then helpOn args else .usage)
      else
        match g.addPath level arg with
        | .ok g => readFrom level g none args
        | .error stop => .error stop

namespace Request

/-- The request for a subcommand with the options behind its name, given those in front of it. -/
def of (front : Given) (sub : Subcommand) (g : Given) : Request :=
  match sub with
  | .listRules => .listRules
  | .init => .init (g.has .force)
  | .check =>
    .check
      { settings := (g.value? .config).or (front.value? .config)
        root := g.path.getD "."
        format := ((g.value? .format).bind OutputFormat.ofName?).getD .text
        rules := g.value? .rules
        exclude := (g.options.filter (·.1 = .exclude)).map (·.2) }

/-- What the arguments ask for; nothing if they are no request. -/
def ofArguments (args : List String) : Option Request :=
  let read : Except Stop Request := do
    match ← readFrom none .nothing none args with
    | (front, some (sub, rest)) =>
      let (g, _) ← readFrom (some sub) .nothing none rest
      return Request.of (← front.settle) sub g
    | (_, none) => throw .usage
  match read with
  | .ok r => some r
  | .error (.answer r) => some r
  | .error .usage => none

end Request

end MessageLint.CommandLine
