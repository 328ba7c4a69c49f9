/-!
# Command line arguments

Arguments are read one by one. An argument that starts with a hyphen is an option, unless it is a
lone hyphen or stands after a double hyphen; all others are positional. The value of an option may
be attached to it, with an equals sign or, after a short name, without; otherwise the next argument
is the value, which then does not start with a hyphen. Short options without a value may share one
hyphen. What is asked for first counts: arguments after a request for help are not looked at.
-/

namespace ProtocolMocks

/-- What an option is for. -/
inductive OptionRole where
  /-- May be given any number of times, and is counted. -/
  | counter
  /-- May be given once. -/
  | switch
  /-- May be given once, with a value. -/
  | setting
  | help
  | version
deriving DecidableEq, Repr

/-- An option that a command knows. -/
structure OptionSpec where
  long : String
  short : Option Char
  role : OptionRole
deriving DecidableEq, Repr

/-- The options of a command and how many positional arguments it takes at most. -/
structure ArgumentSpec where
  options : List OptionSpec
  positionals : Nat
deriving DecidableEq, Repr

/-- Why reading arguments ends early. -/
inductive ArgumentStop where
  | misuse
  | help
  | version
deriving DecidableEq, Repr

/-- The arguments read so far. -/
structure Arguments where
  /-- The options without a value, by long name. -/
  flags : List String := []
  /-- The options with a value, by long name. -/
  values : List (String × String) := []
  positionals : List String := []
  /-- An option that still waits for its value. -/
  waiting : Option String := none
  /-- Whether a double hyphen was met. -/
  onlyPositionals : Bool := false
deriving DecidableEq, Repr

namespace Arguments

/-- Adds an option that takes no value. -/
def addFlag (spec : OptionSpec) (args : Arguments) : Except ArgumentStop Arguments :=
  match args.waiting, spec.role with
  | some _, _ => .error .misuse
  | none, .help => .error .help
  | none, .version => .error .version
  | none, .counter => .ok { args with flags := args.flags ++ [spec.long] }
  | none, .switch =>
    if args.flags.contains spec.long then .error .misuse
    else .ok { args with flags := args.flags ++ [spec.long] }
  | none, .setting => .error .misuse

/-- Adds the value of an option, which may be given only once. -/
def addValue (long value : String) (args : Arguments) : Except ArgumentStop Arguments :=
  if (args.values.lookup long).isSome then .error .misuse
  else .ok { args with values := args.values ++ [(long, value)], waiting := none }

/-- Adds an option that takes a value, attached or to follow. -/
def addSetting (long : String) (attached : Option String) (args : Arguments) :
    Except ArgumentStop Arguments :=
  match args.waiting, attached with
  | some _, _ => .error .misuse
  | none, some value => addValue long value args
  | none, none => .ok { args with waiting := some long }

/-- Adds a long option, given without its hyphens. -/
def addLong (spec : ArgumentSpec) (text : List Char) (args : Arguments) :
    Except ArgumentStop Arguments :=
  let name := String.ofList (text.takeWhile (· != '='))
  let attached := match text.dropWhile (· != '=') with
    | _ :: value => some (String.ofList value)
    | [] => none
  match spec.options.find? (·.long == name) with
  | none => .error .misuse
  | some option =>
    if option.role = .setting then addSetting name attached args
    else if attached.isSome then .error .misuse
    else addFlag option args

/-- Adds the short options that share one hyphen. -/
def addShorts (spec : ArgumentSpec) : List Char → Arguments → Except ArgumentStop Arguments
  | [], args => .ok args
  | c :: cs, args =>
    match spec.options.find? (·.short == some c) with
    | none => .error .misuse
    | some option =>
      if option.role = .setting then
        match cs with
        | [] => addSetting option.long none args
        | '=' :: value => addSetting option.long (some (String.ofList value)) args
        | value => addSetting option.long (some (String.ofList value)) args
      else do addShorts spec cs (← addFlag option args)

/-- Adds a positional argument. -/
def addPositional (spec : ArgumentSpec) (text : String) (args : Arguments) :
    Except ArgumentStop Arguments :=
  if args.positionals.length < spec.positionals then
    .ok { args with positionals := args.positionals ++ [text] }
  else .error .misuse

/-- Adds one argument. -/
def add (spec : ArgumentSpec) (args : Arguments) (text : String) :
    Except ArgumentStop Arguments :=
  if args.onlyPositionals then addPositional spec text args
  else
    match text.toList with
    | ['-', '-'] =>
      if args.waiting.isSome then .error .misuse else .ok { args with onlyPositionals := true }
    | '-' :: '-' :: long => addLong spec long args
    | '-' :: c :: cs => addShorts spec (c :: cs) args
    | _ =>
      match args.waiting with
      | some long => addValue long text args
      | none => addPositional spec text args

/-- Reads all arguments; an option without its value is misuse. -/
def read (spec : ArgumentSpec) (texts : List String) : Except ArgumentStop Arguments := do
  let args ← texts.foldlM (add spec) {}
  if args.waiting.isSome then .error .misuse else .ok args

/-- How often an option was given. -/
def count (args : Arguments) (long : String) : Nat := args.flags.count long

/-- The value of an option. -/
def value? (args : Arguments) (long : String) : Option String := args.values.lookup long

end Arguments

end ProtocolMocks
