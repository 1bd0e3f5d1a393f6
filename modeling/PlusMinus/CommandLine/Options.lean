import PlusMinus.Text.Character

/-! The arguments of the command line. -/

namespace PlusMinus.CommandLine

/-- The flags that can be given. -/
inductive Flag where
  | help
  | actual
  | steps
deriving DecidableEq

/-- The full names of the flags. -/
def flagNames : List (List Char × Flag) := [
  ("-h".toList, .help), ("--help".toList, .help),
  ("--actual".toList, .actual), ("--steps".toList, .steps)]

/-- What an argument is. -/
inductive Argument where
  | word
  | flag (flag : Flag)
  /-- A flag with a value, which none of them takes. -/
  | misused
  /-- The beginning of several flags. -/
  | ambiguous
  | unknown
deriving DecidableEq

namespace Argument

/-- A negative number, which is a word and no flag. -/
def isNegativeNumber (text : List Char) : Bool :=
  let body := if text.getLast? = some '\n' then text.dropLast else text
  match body with
  | '-' :: number =>
    let fraction := (number.dropWhile Text.isDecimal).drop 1
    match number.dropWhile Text.isDecimal with
    | [] => !number.isEmpty
    | c :: _ => c = '.' && !fraction.isEmpty && fraction.all Text.isDecimal
  | _ => false

/-- The short help flag with letters behind it, each of which has to be that flag again. -/
def helpCluster (letters : List Char) : Argument :=
  if letters.all (· = 'h') then .flag .help else .misused

/-- An argument that begins with a dash and is no flag by its full name. -/
def ofDashed (text : List Char) : Argument :=
  let name := text.takeWhile (· ≠ '=')
  let hasValue := text.contains '='
  let fallback : Argument := if isNegativeNumber text || text.contains ' ' then .word else .unknown
  match text with
  | '-' :: '-' :: _ => match flagNames.filter fun (full, _) => name.isPrefixOf full with
    | [] => fallback
    | [(_, found)] => if hasValue then .misused else .flag found
    | _ => .ambiguous
  | ['-', 'h', '='] => .misused
  -- One equals sign may set the letters off.
  | '-' :: 'h' :: '=' :: letters => helpCluster letters
  | '-' :: 'h' :: letters => helpCluster letters
  | _ => fallback

/-- What an argument is by its text; a lone dash is a word. -/
def ofText (text : List Char) : Argument :=
  match text with
  | '-' :: _ :: _ => match flagNames.lookup text with
    | some found => .flag found
    | none => ofDashed text
  | _ => .word

end Argument

/-- What the arguments ask for: words of an expression, a mode, and an explanation. -/
structure Options where
  words : List String := []
  actual : Bool := false
  steps : Bool := false
deriving DecidableEq

/-- What is done with the arguments. -/
inductive Request where
  | run (options : Options)
  | help
  | usage
deriving DecidableEq

/-- How far the words have been read; they have to stand together. -/
inductive Phase where
  | before
  | within
  | behind
deriving DecidableEq

/-- Reads the arguments up to a double dash, behind which all are words; `refused` tells that one of
them is not understood, which counts only when no help is asked for. -/
def Request.read (options : Options) (phase : Phase) (refused : Bool) : List String → Request
  | [] => if refused then .usage else .run options
  | "--" :: rest =>
    if refused || phase = .behind then .usage
    else .run { options with words := options.words ++ rest }
  | text :: rest =>
    -- A flag between words closes the place where words may stand.
    let closed : Phase := if phase = .before then .before else .behind
    match Argument.ofText text.toList with
    | .word =>
      if phase = .behind then read options phase true rest
      else read { options with words := options.words ++ [text] } .within refused rest
    | .flag .help => .help
    | .flag .actual => read { options with actual := true } closed refused rest
    | .flag .steps => read { options with steps := true } closed refused rest
    | .misused | .ambiguous => .usage
    | .unknown => read options closed true rest

/-- What the arguments ask for; an ambiguous flag is refused before any other is read. -/
def Request.ofArguments (arguments : List String) : Request :=
  let flags := arguments.takeWhile (· ≠ "--")
  if flags.any fun text => Argument.ofText text.toList = .ambiguous then .usage
  else read {} .before false arguments

end PlusMinus.CommandLine
