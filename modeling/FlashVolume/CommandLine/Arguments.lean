/-
Arguments of the command line, read from left to right. Short options may be run together, the last
of them with its value attached; a value may also follow an equals sign or be the next argument,
unless that looks like an option. Nothing may be given twice, exactly one device is named, and two
dashes end the options. Asking for the version or for help ends the reading there and then.
-/
import FlashVolume.Check.Config

namespace FlashVolume.CommandLine

/-- What the user asks for. -/
inductive Request
  | check (device : String) (config : Config)
  | version
  | help
deriving DecidableEq

/-- The options. -/
inductive Flag
  | pageSize
  | eraseSize
  | segmentSize
  | force
  | workers
  | noChange
  | autoRepair
  | assumeYes
  | verbose
  | json
  | help
  | version
deriving DecidableEq

namespace Flag

/-- The option behind two dashes. -/
def ofLong? : String → Option Flag
  | "page-size" => some pageSize
  | "erase-size" => some eraseSize
  | "seg-size" => some segmentSize
  | "force" => some force
  | "threads" => some workers
  | "no-change" => some noChange
  | "auto-repair" => some autoRepair
  | "yes" => some assumeYes
  | "verbose" => some verbose
  | "json" => some json
  | "help" => some help
  | "version" => some version
  | _ => none

/-- The option behind a single dash. -/
def ofShort? : Char → Option Flag
  | 'B' => some pageSize
  | 'e' => some eraseSize
  | 's' => some segmentSize
  | 'f' => some force
  | 'j' => some workers
  | 'n' => some noChange
  | 'p' => some autoRepair
  | 'y' => some assumeYes
  | 'v' => some verbose
  | 'h' => some help
  | 'V' => some version
  | _ => none

/-- The option has a value. -/
def takesValue : Flag → Bool
  | pageSize | eraseSize | segmentSize | workers => true
  | _ => false

end Flag

/-! ## Numbers -/

/-- A natural number in decimal digits, at least one of them. -/
def digits? (chars : List Char) : Option Nat :=
  if chars ≠ [] ∧ chars.all Char.isDigit then
    some (chars.foldl (fun n c => n * 10 + (c.toNat - 48)) 0)
  else
    none

/-- A number of 64 bits, possibly behind a plus sign. -/
def number64? (text : String) : Option Nat :=
  let value? :=
    match text.toList with
    | '+' :: rest => digits? rest
    | chars => digits? chars
  value?.filter (· < UInt64.size)

/-- A number of 32 bits, possibly behind a plus sign; zero may have a minus sign. -/
def number32? (text : String) : Option Nat :=
  let value? :=
    match text.toList with
    | '+' :: rest => digits? rest
    | '-' :: rest => (digits? rest).filter (· == 0)
    | chars => digits? chars
  value?.filter (· < UInt32.size)

/-! ## Reading -/

/-- What was read so far. -/
structure Progress where
  config : Config
  device : Option String
  seen : List Flag

/-- What reading one argument comes to. -/
inductive Step
  | go (progress : Progress)
  | value (flag : Flag) (progress : Progress)
  | stop (request : Request)

namespace Progress

def start : Progress := ⟨.default, none, []⟩

/-- Name the device; there is only one, and its name is not empty. -/
def setDevice? (p : Progress) (name : String) : Option Progress :=
  if p.device.isNone ∧ name ≠ "" then some { p with device := some name } else none

/-- Note an option that is not there yet. -/
def note? (p : Progress) (flag : Flag) : Option Progress :=
  if p.seen.contains flag then none else some { p with seen := flag :: p.seen }

/-- Take in an option without a value. -/
def setFlag? (p : Progress) (flag : Flag) : Option Step :=
  match flag with
  | .help => some (.stop .help)
  | .version => some (.stop .version)
  | flag => do
    let p ← p.note? flag
    let c := p.config
    let config ← match flag with
      | .force => some { c with force := true }
      | .noChange => some { c with noChange := true }
      | .autoRepair => some { c with autoRepair := true }
      | .assumeYes => some { c with assumeYes := true }
      | .verbose => some { c with verbose := true }
      | .json => some { c with json := true }
      | _ => none
    return .go { p with config }

/-- Take in an option with its value. -/
def setValue? (p : Progress) (flag : Flag) (text : String) : Option Progress := do
  let p ← p.note? flag
  let c := p.config
  let config ← match flag with
    | .pageSize => (number32? text).map fun n => { c with pageSize := some n }
    | .eraseSize => (number32? text).map fun n => { c with eraseSize := some n }
    | .segmentSize => (number64? text).map fun n => { c with segmentSize := some n }
    | .workers => (number64? text).map fun n => { c with workers := some n }
    | _ => none
  return { p with config }

/-- Read options run together behind a single dash. -/
def readShort? (p : Progress) : (chars : List Char) → Option Step
  | [] => some (.go p)
  | c :: rest =>
    match Flag.ofShort? c with
    | none => none
    | some flag =>
      if flag.takesValue then
        match rest with
        | [] => some (.value flag p)
        | '=' :: text => (p.setValue? flag (String.ofList text)).map .go
        | text => (p.setValue? flag (String.ofList text)).map .go
      else
        match p.setFlag? flag with
        | some (.go p) => p.readShort? rest
        | step => step

/-- Read an option behind two dashes. -/
def readLong? (p : Progress) (chars : List Char) : Option Step := do
  let name := chars.takeWhile (· != '=')
  let flag ← Flag.ofLong? (String.ofList name)
  match chars.dropWhile (· != '=') with
  | [] => if flag.takesValue then return .value flag p else p.setFlag? flag
  | _ :: text =>
    if flag.takesValue then return .go (← p.setValue? flag (String.ofList text)) else none

/-- Read arguments among which there are no options any more. -/
def readNames? (p : Progress) (names : List String) : Option Progress :=
  names.foldlM setDevice? p

/-- The request made by everything that was read. -/
def request? (p : Progress) : Option Request := p.device.map (.check · p.config)

/-- An argument that looks like an option and so is never a value. -/
def isOption (chars : List Char) : Bool := chars.head? == some '-' && chars != ['-']

/-- Read the arguments still to come. -/
def read? (p : Progress) : (arguments : List String) → Option Request
  | [] => p.request?
  | argument :: rest =>
    match argument.toList with
    -- Behind two dashes everything is a name; a single dash is a name, too.
    | ['-', '-'] => (p.readNames? rest).bind (·.request?)
    | '-' :: '-' :: chars => next? (p.readLong? chars) rest
    | '-' :: c :: chars => next? (p.readShort? (c :: chars)) rest
    | _ =>
      match p.setDevice? argument with
      | none => none
      | some p => p.read? rest
where
  /-- Go on behind an option, whose value may be the next argument. -/
  next? (step : Option Step) (rest : List String) : Option Request :=
    match step, rest with
    | none, _ => none
    | some (.stop request), _ => some request
    | some (.go p), rest => p.read? rest
    | some (.value _ _), [] => none
    | some (.value flag p), text :: rest =>
      if isOption text.toList then none
      else
        match p.setValue? flag text with
        | none => none
        | some p => p.read? rest

end Progress

/-- The request made by the arguments, if they make sense. -/
def parse? (arguments : List String) : Option Request := Progress.start.read? arguments

end FlashVolume.CommandLine
