import SetupCatalog.Text.Basic

/-!
# The flags of the command line

Every flag has one or two spellings, and some flags take a value.
-/

namespace SetupCatalog.CommandLine

/-- The flags. -/
inductive Flag where
  | help
  | format
  | output
  | plan
  | exclude
  | noSkipList
  | loopWindow
  | nameWindow
  | urlWindow
  | verbose
  | quiet
  | version
  deriving DecidableEq, Repr

namespace Flag

/-- Every flag, in the order of the help text. -/
def all : List Flag :=
  [help, format, output, plan, exclude, noSkipList, loopWindow, nameWindow, urlWindow, verbose,
    quiet, version]

/-- How a flag is spelled. -/
def spellings : Flag → List Text
  | help => ["-h".toList, "--help".toList]
  | format => ["-f".toList, "--format".toList]
  | output => ["-o".toList, "--output".toList]
  | plan => ["--plan".toList]
  | exclude => ["--exclude".toList]
  | noSkipList => ["--no-skip-list".toList]
  | loopWindow => ["--iteration-window".toList]
  | nameWindow => ["--sideload-window".toList]
  | urlWindow => ["--sideload-url-window".toList]
  | verbose => ["-v".toList, "--verbose".toList]
  | quiet => ["-q".toList, "--quiet".toList]
  | version => ["--version".toList]

/-- Whether a flag takes a value. -/
def takesValue : Flag → Bool
  | format | output | exclude | loopWindow | nameWindow | urlWindow => true
  | help | plan | noSkipList | verbose | quiet | version => false

/-- How a flag is named in messages. -/
def label (f : Flag) : Text :=
  Text.joined ['/'] f.spellings

/-- Every spelling with its flag. -/
def spelled : List (Text × Flag) :=
  all.flatMap fun f => f.spellings.map fun s => (s, f)

/-- The flag with exactly the given spelling. -/
def ofSpelling? (s : Text) : Option Flag :=
  spelled.lookup s

end Flag

end SetupCatalog.CommandLine
