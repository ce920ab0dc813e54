/-!
# Reading command-line arguments

A command is described by its flags, its options with a value, its positional argument and its
subcommands. `Spec.read` reads arguments against such a description.

- `--name`, `--name=value`, `-n`, `-nvalue`, `-n=value` are flags and options; short flags can be
  written together. An option without an attached value takes the next argument, unless that is a
  flag or an option itself.
- A subcommand takes over all arguments behind its name. Global flags and options can stand before
  and behind it; of two values of a global option the one further in counts.
- `--` makes everything behind it positional.
- A positional argument that admits hyphens also takes what looks like an option but is none; once
  its first value is read, a repeated one takes everything.
-/

namespace TagFormula.Arguments

/-- Why arguments are refused, or what is displayed instead. -/
inductive Refusal where
  | displayHelp
  | displayVersion
  /-- A command that needs a subcommand stands alone. -/
  | helpOnMissingSubcommand
  | missingSubcommand
  | invalidSubcommand
  | unknownArgument
  | missingRequiredArgument
  /-- A value is missing or none of those allowed. -/
  | invalidValue
  /-- A flag has a value. -/
  | tooManyValues
  /-- A flag or an option is repeated. -/
  | conflict
  deriving DecidableEq, Repr

/-- The exit code of a refusal: what is asked for to be displayed is no failure. -/
def Refusal.exitCode : Refusal → Nat
  | displayHelp | displayVersion => 0
  | _ => 2

structure Switch where
  long : String
  short : Option Char := none
  /-- It has a value. -/
  takesValue : Bool := false
  /-- It can stand behind a subcommand too. -/
  isGlobal : Bool := false
  deriving DecidableEq, Repr

structure Positional where
  name : String
  required : Bool := false
  /-- It takes any number of values. -/
  repeated : Bool := false
  /-- It takes values that start with a hyphen. -/
  hyphens : Bool := false
  /-- The values allowed, if not all are. -/
  allowed : Option (List String) := none
  deriving DecidableEq, Repr

structure Spec where
  name : String
  aliases : List String := []
  switches : List Switch := []
  positional : Option Positional := none
  subcommands : List Spec := []
  needsSubcommand : Bool := false
  hasVersion : Bool := false

/-- What is read of a command: its flags, the values of its options and of its positional argument,
and its subcommand. -/
inductive Reading where
  | mk (name : String) (flags : List String) (options : List (String × String))
    (values : List String) (subcommand : Option Reading)

/-- What has been read but not yet been checked. -/
inductive Pending where
  /-- An option that waits for its value. -/
  | awaiting (switch : Switch)
  /-- An option with its value. -/
  | option (switch : Switch) (value : String)
  /-- The values of the positional argument. -/
  | values (positional : Positional)

/-- Where the reading of a command stands. -/
structure Progress where
  flags : List String := []
  options : List (String × String) := []
  values : List String := []
  pending : Option Pending := none
  /-- A `--` has been read. -/
  trailing : Bool := false

def Progress.awaiting? (p : Progress) : Option Switch :=
  match p.pending with
  | some (.awaiting switch) => some switch
  | _ => none

namespace Spec

def find? (spec : Spec) (name : String) : Option Spec :=
  spec.subcommands.find? fun sub => sub.name = name || name ∈ sub.aliases

/-- The name under which a command with subcommands explains them. -/
def helpName : String := "help"

/-- The subcommand's description with the global switches of the command around it. -/
def inherit (spec sub : Spec) : Spec :=
  { sub with switches := sub.switches ++ spec.switches.filter (·.isGlobal) }

/-- The positional argument that takes the next value, if there is one left. -/
def nextPositional? (spec : Spec) (p : Progress) : Option Positional :=
  spec.positional.filter fun positional => positional.repeated || p.values.isEmpty

/-- A value that starts with a hyphen can be the next positional one. -/
def admitsHyphens (spec : Spec) (p : Progress) : Bool :=
  match spec.nextPositional? p with
  | some positional => positional.hyphens
  | none => false

/-- A repeated positional argument that admits hyphens has begun, so it takes everything. -/
def takesAll (spec : Spec) (p : Progress) : Bool :=
  match spec.positional with
  | some positional => positional.repeated && positional.hyphens && !p.values.isEmpty
  | none => false

inductive Short where
  | help
  | version
  | switch (s : Switch)

def short? (spec : Spec) (c : Char) : Option Short :=
  if c = 'h' then some .help
  else if c = 'V' && spec.hasVersion then some .version
  else (spec.switches.find? (·.short = some c)).map .switch

end Spec

namespace Progress

/-- Check what is pending. An option has to have a value, may not be repeated, and its value may
not be empty, in this order; a positional value has to be one of those allowed. -/
def settle (p : Progress) : Except Refusal Progress :=
  match p.pending with
  | none => .ok p
  | some (.awaiting _) => .error .invalidValue
  | some (.option switch value) =>
    if p.options.any (·.1 = switch.long) then .error .conflict
    else if value.isEmpty then .error .invalidValue
    else .ok { p with options := p.options ++ [(switch.long, value)], pending := none }
  | some (.values positional) =>
    match positional.allowed with
    | some allowed =>
      if p.values.all (· ∈ allowed) then .ok { p with pending := none } else .error .invalidValue
    | none => .ok { p with pending := none }

/-- Set a flag, which must not be set yet. -/
def setFlag (p : Progress) (switch : Switch) : Except Refusal Progress := do
  let p ← p.settle
  if switch.long ∈ p.flags then .error .conflict
  else .ok { p with flags := p.flags ++ [switch.long] }

/-- Begin an option, whose value is attached or is still to come. -/
def beginOption (p : Progress) (switch : Switch) (attached : Option String) :
    Except Refusal Progress := do
  let p ← p.settle
  match attached with
  | some value => settle { p with pending := some (.option switch value) }
  | none => .ok { p with pending := some (.awaiting switch) }

end Progress

/-- What becomes of an argument. -/
inductive Taken where
  /-- It is used up. -/
  | used (p : Progress)
  /-- It is a value after all. -/
  | asValue

namespace Spec

def readShorts (spec : Spec) (p : Progress) : List Char → Except Refusal Progress
  | [] => .ok p
  | c :: rest =>
    match spec.short? c with
    | none => .error .unknownArgument
    | some .help => do let _ ← p.settle; .error .displayHelp
    | some .version => do let _ ← p.settle; .error .displayVersion
    | some (.switch s) =>
      if s.takesValue then
        match rest with
        | [] => p.beginOption s none
        | '=' :: value => p.beginOption s (some (String.ofList value))
        | value => p.beginOption s (some (String.ofList value))
      else do
        let p ← p.setFlag s
        readShorts spec p rest

def takeShort (spec : Spec) (p : Progress) (letters : List Char) : Except Refusal Taken :=
  if spec.takesAll p then .ok .asValue
  else if spec.admitsHyphens p && letters.any fun c => (spec.short? c).isNone then .ok .asValue
  else (spec.readShorts p letters).map .used

def takeLong (spec : Spec) (p : Progress) (text : List Char) : Except Refusal Taken := do
  let name := String.ofList (text.takeWhile (· ≠ '='))
  let attached := match text.dropWhile (· ≠ '=') with
    | [] => none
    | _ :: value => some (String.ofList value)
  if spec.takesAll p then .ok .asValue
  else if name = "help" || (name = "version" && spec.hasVersion) then
    if attached.isSome then .error .tooManyValues
    else
      let _ ← p.settle
      .error (if name = "help" then .displayHelp else .displayVersion)
  else
    match spec.switches.find? (·.long = name) with
    | some s =>
      if s.takesValue then (p.beginOption s attached).map .used
      else if attached.isSome then .error .tooManyValues
      else (p.setFlag s).map .used
    | none => if spec.admitsHyphens p then .ok .asValue else .error .unknownArgument

/-- Take an argument that is no switch: as the value of the waiting option, or as a positional
value. -/
def takeValue (spec : Spec) (p : Progress) (value : String) : Except Refusal Progress :=
  match p.awaiting?, p.trailing with
  | some switch, false => .ok { p with pending := some (.option switch value) }
  | _, _ =>
    match spec.nextPositional? p with
    | some positional => do
      let p ← p.settle
      .ok { p with values := p.values ++ [value], pending := some (.values positional) }
    | none =>
      let isName := value = helpName || (spec.find? value).isSome
      if spec.subcommands.isEmpty || (p.trailing && isName) then .error .unknownArgument
      else .error .invalidSubcommand

def take (spec : Spec) (p : Progress) (arg : String) : Except Refusal Progress :=
  if p.trailing then spec.takeValue p arg
  else
    match arg.toList with
    | ['-', '-'] =>
      if spec.takesAll p then spec.takeValue p arg else .ok { p with trailing := true }
    | '-' :: '-' :: text => do
      match ← spec.takeLong p text with
      | .used p => .ok p
      | .asValue => spec.takeValue p arg
    | '-' :: letter :: letters => do
      match ← spec.takeShort p (letter :: letters) with
      | .used p => .ok p
      | .asValue => spec.takeValue p arg
    | _ => spec.takeValue p arg

/-- What the arguments behind `help` ask for: the explanation of a subcommand, if they name one. -/
def readHelp (spec : Spec) : List String → Refusal
  | [] => .displayHelp
  | name :: rest =>
    match spec.find? name with
    | some sub => sub.readHelp rest
    | none =>
      if name = helpName && !spec.subcommands.isEmpty && rest.isEmpty then .displayHelp
      else .invalidSubcommand

/-- End the reading of a command: nothing may be missing. -/
def finish (spec : Spec) (p : Progress) (subcommand : Option Reading) :
    Except Refusal Reading := do
  let p ← p.settle
  if spec.needsSubcommand && subcommand.isNone then
    if p.flags.isEmpty && p.options.isEmpty then .error .helpOnMissingSubcommand
    else .error .missingSubcommand
  else if subcommand.isNone && p.values.isEmpty && spec.positional.any (·.required) then
    .error .missingRequiredArgument
  else .ok (.mk spec.name p.flags p.options p.values subcommand)

/-- Read the arguments of a command that stands at a given point. -/
def readFrom (spec : Spec) (p : Progress) : List String → Except Refusal Reading
  | [] => spec.finish p none
  | arg :: rest =>
    let isName := !p.trailing && p.awaiting?.isNone && !spec.subcommands.isEmpty
    match spec.find? arg, isName with
    | some sub, true => do
      let reading ← readFrom (spec.inherit sub) {} rest
      spec.finish p (some reading)
    | _, _ =>
      if isName && arg = helpName then .error (spec.readHelp rest)
      else do
        let p ← spec.take p arg
        readFrom spec p rest

def read (spec : Spec) (args : List String) : Except Refusal Reading :=
  spec.readFrom {} args

end Spec

namespace Reading

def subcommand? : Reading → Option Reading
  | mk _ _ _ _ subcommand => subcommand

/-- A flag is set here or in a subcommand. -/
def hasFlag (flag : String) : Reading → Bool
  | mk _ flags _ _ none => flag ∈ flags
  | mk _ flags _ _ (some sub) => flag ∈ flags || sub.hasFlag flag

/-- The value of an option; the one furthest in counts. -/
def option? (name : String) : Reading → Option String
  | mk _ _ options _ none => (options.find? (·.1 = name)).map (·.2)
  | mk _ _ options _ (some sub) =>
    (sub.option? name).or ((options.find? (·.1 = name)).map (·.2))

end Reading

end TagFormula.Arguments
