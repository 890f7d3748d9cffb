import Handheld.Build.Choices
import Handheld.CommandLine.Grammar
import Handheld.Database.Key

/-! # Command lines — what the program is asked to do

    There are two commands: `pack` assembles a database from input files,
    `info` describes one.  Options before the command are those of the
    program itself. -/

namespace Handheld

/-! ## What is asked for -/

/-- What a database is packed from, and where to. -/
structure PackRequest where
  choices : Choices
  project : Option String
  output : String
  /-- The input files, or a name and a creator before them. -/
  inputs : List String
deriving DecidableEq

/-- Which database is described, and how. -/
structure InfoRequest where
  json : Bool
  file : String
deriving DecidableEq

/-- What the program does. -/
inductive Command where
  | pack (request : PackRequest)
  | info (request : InfoRequest)
deriving DecidableEq

/-- The paths that a command reads or writes. -/
def Command.paths : Command → List String
  | .pack r => r.output :: r.project.toList ++ r.inputs
  | .info r => [r.file]

/-- A command line that is carried out. -/
structure CommandLine where
  verbose : Bool
  command : Command
deriving DecidableEq

namespace CommandLine

/-! ## Options of all commands -/

/-- The option for a verbose journal. -/
def verboseParameter {α : Type} : Parameter α :=
  ⟨"verbose", some 'v', .verbose⟩

/-- The option for help. -/
def helpParameter {α : Type} : Parameter α :=
  ⟨"help", some 'h', .help⟩

/-- The number up to `limit` that a value is.  It may have a sign if that
    does not take it out of range. -/
def number? (limit : Nat) (value : String) : Option Nat :=
  match value.toList with
  | '-' :: digits => (Numeral.digits? 10 digits).filter (· = 0)
  | digits => Numeral.parse? 10 limit digits

/-- A text that is not empty. -/
def path? (value : String) : Option String :=
  if value = "" then none else some value

/-! ## Packing -/

/-- What is asked of `pack` so far. -/
structure PackDraft where
  choices : Choices
  products : List Product
  project : Option String
  output : Option String
  inputs : List String

namespace PackDraft

/-- Before anything is asked for. -/
def start : PackDraft := ⟨Choices.nothing, [], none, none, []⟩

/-- The draft with other choices. -/
def withChoices (d : PackDraft) (choices : Choices) : PackDraft :=
  ⟨choices, d.products, d.project, d.output, d.inputs⟩

/-- The draft with a further product asked for. -/
def withProduct (product : Product) (d : PackDraft) : PackDraft :=
  ⟨d.choices, d.products ++ [product], d.project, d.output, d.inputs⟩

/-- The option with a value that changes the choices. -/
def choice {β : Type} (long : String) (value? : String → Option β)
    (change : β → Choices → Choices) : Parameter PackDraft :=
  ⟨long, none, .value false fun text d =>
    (value? text).map fun value => d.withChoices (change value d.choices)⟩

/-- The option with any text for a value that adds to the choices. -/
def further (long : String) (short : Option Char)
    (change : String → Choices → Choices) : Parameter PackDraft :=
  ⟨long, short, .value true fun text d =>
    some (d.withChoices (change text d.choices))⟩

/-- The option without a value that changes the choices. -/
def switch (long : String) (change : Choices → Choices) :
    Parameter PackDraft :=
  ⟨long, none, .flag fun d => d.withChoices (change d.choices)⟩

/-- A list that may be absent, with one more element. -/
def append (list : Option (List String)) (text : String) :
    Option (List String) :=
  some (list.getD [] ++ [text])

/-- The options of `pack`. -/
def parameters : List (Parameter PackDraft) := [
  verboseParameter,
  helpParameter,
  choice "name" some fun name c => { c with name := some name },
  choice "type" (fun text => (Tag.ofText text).toOption)
    fun tag c => { c with type := some tag },
  choice "creator" (fun text => (Tag.ofText text).toOption)
    fun tag c => { c with creator := some tag },
  choice "version-number" (number? 0xFFFF)
    fun n c => { c with version := some n.toUInt16 },
  choice "modnum" (number? 0xFFFFFFFF)
    fun n c => { c with modificationNumber := some n.toUInt32 },
  further "attribute" (some 'a')
    fun name c => { c with attributes := append c.attributes name },
  ⟨"app", none, .flag (withProduct .application)⟩,
  ⟨"library", none, .flag (withProduct .library)⟩,
  ⟨"generic", none, .flag (withProduct .generic)⟩,
  choice "stack-size" (number? 0xFFFFFFFF)
    fun n c => { c with stackSize := some n.toUInt32 },
  choice "heap-size" (number? 0xFFFFFFFF)
    fun n c => { c with heapSize := some n.toUInt32 },
  switch "no-data" fun c => { c with emitData := some false },
  choice "main-code" (fun text => (ResourceKey.ofText text).toOption)
    fun key c => { c with mainCode := some key },
  further "extra-code" none
    fun name c => { c with extraCode := append c.extraCode name },
  choice "compression" (number? Compression.Effort.maxLevel)
    fun n c => { c with compression := some n },
  switch "force-rloc" fun c => { c with forceRelocations := some true },
  ⟨"project", none, .value false fun text d =>
    (path? text).map fun path =>
      ⟨d.choices, d.products, some path, d.output, d.inputs⟩⟩]

/-- The first operand is the output, all others are inputs. -/
def operand? (text : String) (d : PackDraft) : Option PackDraft :=
  match d.output with
  | none =>
      (path? text).map fun path =>
        ⟨d.choices, d.products, d.project, some path, d.inputs⟩
  | some _ =>
      some ⟨d.choices, d.products, d.project, d.output, d.inputs ++ [text]⟩

/-- How the words of `pack` are read. -/
def grammar : Grammar PackDraft := ⟨parameters, operand?⟩

/-- What is asked for, if it is complete and not contradictory. -/
def finish (d : PackDraft) : Except Stop PackRequest :=
  match d.output, d.products with
  | some output, [] => .ok ⟨d.choices, d.project, output, d.inputs⟩
  | some output, [product] =>
      .ok ⟨{ d.choices with product := some product }, d.project, output,
        d.inputs⟩
  | _, _ => .error .usage

end PackDraft

/-! ## Describing -/

/-- What is asked of `info` so far. -/
structure InfoDraft where
  json : Bool
  file : Option String

namespace InfoDraft

/-- The only operand is the file. -/
def operand? (text : String) (d : InfoDraft) : Option InfoDraft :=
  match d.file with
  | none => (path? text).map fun path => ⟨d.json, some path⟩
  | some _ => none

/-- How the words of `info` are read. -/
def grammar : Grammar InfoDraft where
  parameters := [verboseParameter, helpParameter,
    ⟨"json", none, .flag fun d => ⟨true, d.file⟩⟩]
  operand? := operand?

/-- What is asked for, if it is complete. -/
def finish (d : InfoDraft) : Except Stop InfoRequest :=
  match d.file with
  | some file => .ok ⟨d.json, file⟩
  | none => .error .usage

end InfoDraft

/-! ## The whole command line -/

/-- How the words before the command are read. -/
def grammar : Grammar Unit where
  parameters := [verboseParameter, helpParameter,
    ⟨"version", some 'V', .help⟩]
  operand? := fun _ _ => none

/-- Asks for help about the program or one of its commands. -/
def help (words : List String) : Stop :=
  if words ∈ [[], ["pack"], ["info"], ["help"]] then .help else .usage

/-- What the words after the options of the program ask for. -/
def ofCommand (verbose : Bool) : List String → Except Stop CommandLine
  | "pack" :: words => do
      let r ← PackDraft.grammar.read .start verbose words
      return ⟨r.verbose, .pack (← r.asked.finish)⟩
  | "info" :: words => do
      let r ← InfoDraft.grammar.read ⟨false, none⟩ verbose words
      return ⟨r.verbose, .info (← r.asked.finish)⟩
  | "help" :: words => .error (help words)
  | _ => .error .usage

/-- What the words of a command line ask for. -/
def ofWords (words : List String) : Except Stop CommandLine := do
  let isOption (word : String) : Bool := word.startsWith "-"
  let r ← grammar.read () false (words.takeWhile isOption)
  if r.ended then .error .usage
  else ofCommand r.verbose (words.dropWhile isOption)

end CommandLine

end Handheld
