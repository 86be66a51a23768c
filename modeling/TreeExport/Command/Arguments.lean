import TreeExport.Text.Digit
import TreeExport.Text.Quoted

/-!
The words of a command line. A word names an option, holds the value of the option before it, or is the
path of a tree; the word `--` ends the options. A long option may be shortened as long as no other one
starts in the same way, and a value may follow in the same word.
-/

namespace TreeExport

namespace Command

structure Options where
  data : Option String
  live : Bool
  output : Option String
  projectName : Option String
  strict : Bool
  dryRun : Bool
  deriving DecidableEq, Repr

structure Arguments extends Options where
  tree : String
  deriving DecidableEq, Repr

inductive Switch where
  | help
  | data
  | live
  | output
  | projectName
  | strict
  | dryRun
  deriving DecidableEq, Repr

namespace Switch

def all : List Switch := [.help, .data, .live, .output, .projectName, .strict, .dryRun]

def spellings : Switch → List String
  | .help => ["-h", "--help"]
  | .data => ["--data", "-d"]
  | .live => ["--live"]
  | .output => ["--output", "-o"]
  | .projectName => ["--project-name"]
  | .strict => ["--strict"]
  | .dryRun => ["--dry-run"]

def name (switch : Switch) : String := "/".intercalate switch.spellings

def takesValue : Switch → Bool
  | .data => true
  | .output => true
  | .projectName => true
  | _ => false

def table : List (String × Switch) :=
  all.flatMap fun switch => switch.spellings.map fun spelling => (spelling, switch)

def ofSpelling? (spelling : String) : Option Switch := table.lookup spelling

end Switch

inductive ArgumentError where
  | ambiguous (word : String) (spellings : List String)
  | expectsValue (switch : Switch)
  | ignoredValue (switch : Switch) (value : String)
  | missingTree
  | unrecognized (words : List String)
  deriving DecidableEq, Repr

def ArgumentError.message : ArgumentError → String
  | .ambiguous word spellings =>
    "ambiguous option: " ++ word ++ " could match " ++ ", ".intercalate spellings
  | .expectsValue switch => "argument " ++ switch.name ++ ": expected one argument"
  | .ignoredValue switch value =>
    "argument " ++ switch.name ++ ": ignored explicit argument "
      ++ String.ofList (Text.quoted value.toList)
  | .missingTree => "the following arguments are required: tree"
  | .unrecognized words => "unrecognized arguments: " ++ " ".intercalate words

/-! ### Words -/

/-- What follows an option in its word: nothing, a value behind an equals sign, or further letters. -/
inductive Rest where
  | nothing
  | value (value : List Char)
  | letters (letters : List Char)
  deriving DecidableEq, Repr

inductive Word where
  | plain
  | separator
  | switch (switch : Switch) (rest : Rest)
  | unknown
  deriving DecidableEq, Repr

def splitValue (word : List Char) : List Char × Rest :=
  let stem := word.takeWhile (· != '=')
  match word.drop stem.length with
  | [] => (stem, .nothing)
  | _ :: value => (stem, .value value)

/-- The spellings that a word may stand for: the long ones that it shortens, or the short one that
further letters directly follow. -/
def candidates (word : List Char) : List (String × Word) :=
  match word with
  | '-' :: '-' :: _ =>
    let (stem, rest) := splitValue word
    (Switch.table.filter fun entry => stem.isPrefixOf entry.1.toList).map fun (spelling, switch) =>
      (spelling, .switch switch rest)
  | '-' :: letter :: letters =>
    let short := String.ofList ['-', letter]
    (Switch.table.filter fun entry => entry.1 == short).map fun (spelling, switch) =>
      (spelling, .switch switch (.letters letters))
  | _ => []

def isDigits (text : List Char) : Bool :=
  text.all fun c => (Text.digitValue? c).isSome

/-- Whether a word is a number below zero, which is never an option. A line break may end it. -/
def isNegativeNumber (word : List Char) : Bool :=
  let word := if word.getLast? == some '\n' then word.dropLast else word
  match word with
  | '-' :: digits =>
    let whole := digits.takeWhile (· != '.')
    match digits.drop whole.length with
    | [] => isDigits whole && !whole.isEmpty
    | _ :: fraction => isDigits whole && isDigits fraction && !fraction.isEmpty
  | _ => false

/-- What a word is that stands before the end of the options. A word with a dash that is no option may
still be a number, or a text with blanks. -/
def classify (word : String) : Except ArgumentError Word :=
  let chars := word.toList
  match chars with
  | '-' :: _ :: _ =>
    let (stem, rest) := splitValue chars
    match Switch.ofSpelling? (String.ofList stem) with
    | some switch => .ok (.switch switch rest)
    | none =>
      match candidates chars with
      | [(_, found)] => .ok found
      | [] => .ok (if isNegativeNumber chars || chars.contains ' ' then .plain else .unknown)
      | several => .error (.ambiguous word (several.map Prod.fst))
  | _ => .ok .plain

def classifyAll : List String → Except ArgumentError (List (String × Word))
  | [] => .ok []
  | word :: rest =>
    if word = "--" then .ok ((word, .separator) :: rest.map fun word => (word, .plain))
    else do return (word, ← classify word) :: (← classifyAll rest)

/-! ### Options -/

structure Found where
  settled : List (Switch × String)
  awaiting : Option Switch

/-- What an option sets together with the letters behind it. They are its value, or else short options
themselves; letters that are none count for nothing. -/
def expandLetters (switch : Switch) (letters : List Char) : Except ArgumentError Found :=
  if switch.takesValue then
    .ok (if letters.isEmpty then ⟨[], some switch⟩ else ⟨[(switch, String.ofList letters)], none⟩)
  else
    match letters with
    | [] => .ok ⟨[(switch, "")], none⟩
    | '-' :: _ => .error (.ignoredValue switch (String.ofList letters))
    | letter :: more =>
      match Switch.ofSpelling? (String.ofList ['-', letter]), more with
      | none, _ => .ok ⟨[(switch, "")], none⟩
      | some next, '=' :: value =>
        if next.takesValue then .ok ⟨[(switch, ""), (next, String.ofList value)], none⟩
        else .error (.ignoredValue next (String.ofList value))
      | some next, more => do
        let found ← expandLetters next more
        return { found with settled := (switch, "") :: found.settled }

def expand (switch : Switch) (rest : Rest) : Except ArgumentError Found :=
  match rest with
  | .nothing => expandLetters switch []
  | .letters letters => expandLetters switch letters
  | .value value =>
    if switch.takesValue then .ok ⟨[(switch, String.ofList value)], none⟩
    else .error (.ignoredValue switch (String.ofList value))

namespace Options

def unset : Options := ⟨none, false, none, none, false, false⟩

def taken (value : String) : Option String :=
  if value = "" then none else some value

def set (options : Options) (switch : Switch) (value : String) : Options :=
  match switch with
  | .help => options
  | .data => { options with data := taken value }
  | .live => { options with live := true }
  | .output => { options with output := taken value }
  | .projectName => { options with projectName := taken value }
  | .strict => { options with strict := true }
  | .dryRun => { options with dryRun := true }

def setAll (options : Options) (settled : List (Switch × String)) : Options :=
  settled.foldl (fun options entry => options.set entry.1 entry.2) options

end Options

/-! ### Commands -/

inductive Invocation where
  | help
  | generate (arguments : Arguments)
  deriving DecidableEq, Repr

structure Progress where
  tree : Option String
  extra : List String
  options : Options

def Progress.finish (progress : Progress) : Except ArgumentError Invocation :=
  match progress.tree, progress.extra with
  | none, _ => .error .missingTree
  | some tree, [] => .ok (.generate { progress.options with tree })
  | some _, extra => .error (.unrecognized extra)

/-- Reads words one after the other. The first plain word is the tree; the end of the options belongs to
it if it stands directly before or behind it. A word that asks for help ends the reading. -/
def readWords (progress : Progress) : List (String × Word) → Except ArgumentError Invocation
  | [] => progress.finish
  | (word, .plain) :: rest =>
    match progress.tree, rest with
    | none, (_, .separator) :: rest => readWords { progress with tree := some word } rest
    | none, rest => readWords { progress with tree := some word } rest
    | some _, rest => readWords { progress with extra := progress.extra ++ [word] } rest
  | (word, .separator) :: rest =>
    match progress.tree, rest with
    | none, (tree, .plain) :: rest => readWords { progress with tree := some tree } rest
    | _, rest => readWords { progress with extra := progress.extra ++ [word] } rest
  | (word, .unknown) :: rest => readWords { progress with extra := progress.extra ++ [word] } rest
  | (_, .switch switch inner) :: rest => do
    let found ← expand switch inner
    let asksHelp := found.settled.any fun entry => entry.1 = .help
    let options := progress.options.setAll found.settled
    match found.awaiting, rest with
    | none, rest => if asksHelp then .ok .help else readWords { progress with options } rest
    | some awaiting, (value, .plain) :: rest =>
      if asksHelp then .ok .help
      else readWords { progress with options := options.set awaiting value } rest
    | some awaiting, _ => .error (.expectsValue awaiting)

def parse (words : List String) : Except ArgumentError Invocation := do
  readWords ⟨none, [], Options.unset⟩ (← classifyAll words)

end Command

end TreeExport
