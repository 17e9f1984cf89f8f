import SetupCatalog.CommandLine.Usage
import SetupCatalog.Rule.Options
import SetupCatalog.Text.Digit

/-!
# From arguments to settings

A command line is read in two steps. First every argument is recognised for itself: as a flag, which
may be abbreviated and may carry a value, as the mark after which no flags come, or as a plain
argument. Then the flags take effect from left to right, each taking the plain argument after it if
it needs a value and carries none. The first plain argument that no flag takes is the path.
-/

namespace SetupCatalog.CommandLine

/-- The forms of a report. -/
inductive Format where
  | markdown
  | json
  deriving DecidableEq, Repr

namespace Format

/-- Every form. -/
def all : List Format :=
  [markdown, json]

/-- The name of a form. -/
def name : Format → Text
  | markdown => "markdown".toList
  | json => "json".toList

/-- The form with the given name. -/
def ofName? (value : Text) : Option Format :=
  all.find? fun f => f.name == value

end Format

/-- What a run of the program is asked to do. -/
structure Settings where
  /-- The folder whose scripts are scanned. -/
  path : Text := ['.']
  /-- The form of the report. -/
  format : Format := .markdown
  /-- Where the report is written; an empty path stands for none. -/
  output : Option Text := none
  /-- Whether the install plan takes the place of the report. -/
  plan : Bool := false
  /-- Further patterns of scripts to exclude. -/
  excludes : List Text := []
  /-- Whether packages on the skip list are marked. -/
  useSkipList : Bool := true
  /-- The distances that rules look around. -/
  options : ScanOptions := {}
  /-- Whether progress is reported in detail. -/
  verbose : Bool := false
  /-- Whether progress is not reported. -/
  quiet : Bool := false

/-! ## Recognising arguments -/

/-- An argument as it is recognised for itself. -/
inductive Token where
  | plain (t : Text)
  | mark
  | flag (f : Flag) (spelling : Text) (value : Option Text)
  | unknown (t : Text)
  deriving DecidableEq, Repr

/-- A flag as an argument may mean it. -/
structure Reading where
  /-- The full spelling. -/
  spelling : Text
  /-- The flag. -/
  flag : Flag
  /-- The value that the argument carries. -/
  value : Option Text

/-- The part of an argument before its first equals sign, and the value after it. -/
def splitValue (t : Text) : Text × Option Text :=
  match t.dropWhile fun c => c != '=' with
  | _ :: value => (t.takeWhile fun c => c != '=', some value)
  | [] => (t, none)

/-- The flags that an argument may mean without being the spelling of one: a long flag may be
abbreviated, and a short one may carry its value without an equals sign. -/
def readings (t : Text) : List Reading :=
  if "--".toList.isPrefixOf t then
    let (start, value) := splitValue t
    (Flag.spelled.filter fun s => start.isPrefixOf s.1).map fun (s, f) => ⟨s, f, value⟩
  else
    Flag.spelled.filterMap fun (s, f) =>
      if s = t.take 2 then some ⟨s, f, some (t.drop 2)⟩
      else if t.isPrefixOf s then some ⟨s, f, none⟩
      else none

/-- Whether an argument is a negative number: digits after a hyphen, or digits around a point with
at least one after it. A line feed may follow. -/
def isNegativeNumber : Text → Bool
  | '-' :: t =>
    let t := if t.getLast? = some '\n' then t.dropLast else t
    match Text.pieces '.' t with
    | [whole] => !whole.isEmpty && whole.all Text.isDigit
    | [whole, places] => whole.all Text.isDigit && !places.isEmpty && places.all Text.isDigit
    | _ => false
  | _ => false

/-- Recognises an argument that starts with a hyphen and is longer than that. -/
def recogniseFlag (t : Text) : Except UsageFault Token :=
  match Flag.ofSpelling? t with
  | some f => .ok (.flag f t none)
  | none =>
    match (splitValue t).2, Flag.ofSpelling? (splitValue t).1 with
    | some value, some f => .ok (.flag f (splitValue t).1 (some value))
    | _, _ =>
      match readings t with
      | [r] => .ok (.flag r.flag r.spelling r.value)
      | [] => .ok (if isNegativeNumber t || t.contains ' ' then .plain t else .unknown t)
      | rs => .error (.ambiguous t (rs.map (·.spelling)))

/-- Recognises an argument. -/
def recognise : Text → Except UsageFault Token
  | '-' :: c :: t => recogniseFlag ('-' :: c :: t)
  | t => .ok (.plain t)

/-- Recognises the arguments of a command line. After the mark every argument is plain. -/
def tokens : List Text → Except UsageFault (List Token)
  | [] => .ok []
  | t :: ts =>
    if t = "--".toList then .ok (.mark :: ts.map .plain)
    else do
      let token ← recognise t
      return token :: (← tokens ts)

/-! ## Taking effect -/

/-- Why no run follows from a command line. -/
inductive Stop where
  | help
  | version
  | fault (e : UsageFault)
  deriving DecidableEq, Repr

/-- The whole number that is the value of a flag. -/
def wholeNumber (f : Flag) (value : Text) : Except Stop Int :=
  match Text.readInt value with
  | some n => .ok n
  | none => .error (.fault (.notWhole f value))

/-- The settings after a flag with a value, or one that takes none, has taken effect. -/
def apply (s : Settings) (f : Flag) (value : Text) : Except Stop Settings :=
  match f with
  | .help => .error .help
  | .version => .error .version
  | .format =>
    match Format.ofName? value with
    | some format => .ok { s with format }
    | none => .error (.fault (.unknownFormat f value (Format.all.map Format.name)))
  | .output => .ok { s with output := some value }
  | .plan => .ok { s with plan := true }
  | .exclude => .ok { s with excludes := s.excludes ++ [value] }
  | .noSkipList => .ok { s with useSkipList := false }
  | .loopWindow => do
    let n ← wholeNumber f value
    return { s with options := { s.options with loopLookahead := n } }
  | .nameWindow => do
    let n ← wholeNumber f value
    return { s with options := { s.options with nameLookback := n } }
  | .urlWindow => do
    let n ← wholeNumber f value
    return { s with options := { s.options with urlBefore := n, urlAfter := n } }
  | .verbose => .ok { s with verbose := true }
  | .quiet => .ok { s with quiet := true }

/-- The settings after flags without values have taken effect. -/
def applyAll (s : Settings) : List Flag → Except Stop Settings
  | [] => .ok s
  | f :: fs => do applyAll (← apply s f []) fs

/-- The flags that an argument with a value stands for: short flags without values may be followed
by further short flags. The last one comes with the value that is left over for it. -/
def cluster (f : Flag) (short : Bool) : Text → Except UsageFault (List Flag × Flag × Option Text)
  | [] => if f.takesValue then .ok ([], f, some []) else .error (.unwantedValue f [])
  | c :: t =>
    if f.takesValue then .ok ([], f, some (c :: t))
    else match if short then Flag.ofSpelling? ['-', c] else none with
      | none => .error (.unwantedValue f (c :: t))
      | some g =>
        if t.isEmpty then .ok ([f], g, none)
        else do
          let (fs, last, value) ← cluster g short t
          return (f :: fs, last, value)

/-- The flags that a recognised flag stands for, the last one with its value. -/
def flagsOf (f : Flag) (spelling : Text) (value : Option Text) :
    Except UsageFault (List Flag × Flag × Option Text) :=
  match value with
  | none => .ok ([], f, none)
  | some value => cluster f (!"--".toList.isPrefixOf spelling) value

/-- How far the tokens of a command line have taken effect. -/
structure Progress where
  /-- The settings so far. -/
  settings : Settings := {}
  /-- Whether the path has been given, or can no longer be. -/
  pathGiven : Bool := false
  /-- The arguments that nothing takes. -/
  left : List Text := []

/-- The settings that tokens lead to, and the arguments that nothing takes. -/
def follow (p : Progress) : List Token → Except Stop Progress
  | [] => .ok p
  | .plain t :: .mark :: ts =>
    if p.pathGiven then follow { p with left := p.left ++ [t, "--".toList] } ts
    else follow { p with settings := { p.settings with path := t }, pathGiven := true } ts
  | .plain t :: ts =>
    if p.pathGiven then follow { p with left := p.left ++ [t] } ts
    else follow { p with settings := { p.settings with path := t }, pathGiven := true } ts
  | .mark :: ts =>
    follow (if p.pathGiven then { p with left := p.left ++ ["--".toList] } else p) ts
  | .unknown t :: ts => follow { p with left := p.left ++ [t] } ts
  | .flag f spelling value :: ts =>
    match flagsOf f spelling value with
    | .error e => .error (.fault e)
    | .ok (before, last, some value) => do
      let s ← applyAll p.settings before
      follow { p with settings := ← apply s last value } ts
    | .ok (before, last, none) =>
      if last.takesValue then
        match ts with
        | .plain value :: ts => do
          let s ← applyAll p.settings before
          follow { p with settings := ← apply s last value } ts
        | _ => .error (.fault (.missingValue last))
      else do
        let s ← applyAll p.settings before
        follow { p with settings := ← apply s last [] } ts

/-- The settings that a command line asks for. -/
def settingsOf (arguments : List Text) : Except Stop Settings :=
  match tokens arguments with
  | .error e => .error (.fault e)
  | .ok ts => do
    let p ← follow {} ts
    if p.left.isEmpty then return p.settings
    else throw (.fault (.unrecognized p.left))

end SetupCatalog.CommandLine
