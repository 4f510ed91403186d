import SnapshotSql.Setting

/-! # The command line

Options are written in full or shortened to a beginning that fits no other option, with their value
behind an equals sign or as the next argument. What looks like an option is no value; a negative
number and a text with a space do not look like one. Help has a short spelling, of one letter, that
may be repeated. The program takes no other arguments.
-/
namespace SnapshotSql.CommandLine

structure Options where
  host : Text
  tcpPort : Int
  debug : Bool
  logLevel : Text
  deriving DecidableEq

def defaults : Options :=
  ⟨"127.0.0.1", 5000, false, "INFO"⟩

inductive Request where
  | serve (options : Options)
  | help
  | usageError
  deriving DecidableEq

inductive Flag where
  | help
  | host
  | tcpPort
  | debug
  | logLevel
  deriving DecidableEq

def longFlags : List (Text × Flag) :=
  [("--help", .help), ("--host", .host), ("--port", .tcpPort), ("--debug", .debug),
    ("--log-level", .logLevel)]

/-- An argument by itself: a value, the separator, or an option with its attached text. -/
inductive Argument where
  | value (text : Text)
  | separator
  | unknownOption
  | option (flag : Flag) (attached : Option Text)
  deriving DecidableEq

/-- Digits behind a minus, perhaps with a point before the last of them; a line break may follow. -/
def looksNegative : Text → Bool
  | .char '-' :: rest =>
      let rest := if rest.getLast? = some (.char '\n') then rest.dropLast else rest
      let digits := rest.takeWhile Text.isDecimal
      match rest.drop digits.length with
      | [] => !digits.isEmpty
      | .char '.' :: fraction => !fraction.isEmpty && fraction.all Text.isDecimal
      | _ => false
  | _ => false

/-- An argument that begins with two minus signs: the option it names or shortens. Nothing is
answered if it could be several. -/
def longOption? (text : Text) : Option Argument :=
  let name := text.takeWhile fun c : CodePoint => c ≠ '='
  let attached := if name.length < text.length then some (text.drop (name.length + 1)) else none
  match longFlags.find? (·.1 = name) with
  | some (_, flag) => some (.option flag attached)
  | none =>
      match longFlags.filter (name.isPrefixOf ·.1) with
      | [] => if text.contains ' ' then some (.value text) else some .unknownOption
      | [(_, flag)] => some (.option flag attached)
      | _ => none

/-- Whether the text behind the short spelling of help only repeats it. An equals sign may come first
if something follows it. -/
def repeatsHelp : Text → Bool
  | [] => true
  | .char '=' :: letters => !letters.isEmpty && letters.all (· = .char 'h')
  | letters => letters.all (· = .char 'h')

def argument? (text : Text) : Option Argument :=
  match text with
  | [.char '-', .char '-'] => some .separator
  | .char '-' :: .char '-' :: _ => longOption? text
  | [.char '-'] => some (.value text)
  | .char '-' :: .char 'h' :: behind =>
      some (.option .help (if repeatsHelp behind then none else some behind))
  | .char '-' :: rest =>
      if looksNegative text || rest.contains ' ' then some (.value text) else some .unknownOption
  | _ => some (.value text)

/-- The arguments as they look; everything behind a separator is a value. -/
def arguments? : List Text → Option (List Argument)
  | [] => some []
  | text :: texts =>
      match argument? text with
      | some .separator => some (.separator :: texts.map .value)
      | some argument => (arguments? texts).map (argument :: ·)
      | none => none

/-- The options with the value of a flag; none if the value does not fit. -/
def assign? (options : Options) (flag : Flag) (text : Text) : Option Options :=
  match flag with
  | .host => some { options with host := text }
  | .tcpPort => (Setting.wholeNumber? text).map fun number => { options with tcpPort := number }
  | .logLevel => some { options with logLevel := text }
  | _ => none

/-- Takes the arguments from left to right. Stray values are reported only at the end, so that a later
request for help is still answered. -/
def readFrom (options : Options) (stray : Bool) : List Argument → Request
  | [] => if stray then .usageError else .serve options
  | .value _ :: rest => readFrom options true rest
  | .separator :: rest => readFrom options true rest
  | .unknownOption :: rest => readFrom options true rest
  | .option .help none :: _ => .help
  | .option .help (some _) :: _ => .usageError
  | .option .debug none :: rest => readFrom { options with debug := true } stray rest
  | .option .debug (some _) :: _ => .usageError
  | .option flag (some text) :: rest =>
      match assign? options flag text with
      | some options => readFrom options stray rest
      | none => .usageError
  | .option flag none :: .value text :: rest =>
      match assign? options flag text with
      | some options => readFrom options stray rest
      | none => .usageError
  | .option _ none :: _ => .usageError

def read (defaults : Options) (arguments : List Text) : Request :=
  match arguments? arguments with
  | some arguments => readFrom defaults false arguments
  | none => .usageError

def usage : String :=
  "usage: [-h] [--host HOST] [--port PORT] [--debug] [--log-level LOG_LEVEL]"

end SnapshotSql.CommandLine
