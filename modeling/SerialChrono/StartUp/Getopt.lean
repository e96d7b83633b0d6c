import SerialChrono.Library.CText
import SerialChrono.Library.CycleRotation

/-!
# The arguments of the command line (`getopt.c`)

`getopt_long` returns the options of an argument vector one by one.  It accepts options and other
arguments in any order: the ones that are no options are skipped, and `permute_args` moves the
options found since before them, by following the cycles of the exchange of the two blocks.

`Getopt` holds the static variables and the vector.  The options have the form the program uses:
the string of the letters neither begins with a sign of its own nor contains a hyphen or a `W`,
the long options have no flags, and `POSIXLY_CORRECT` is not set.  Nothing is returned where `gcd`
would divide by zero.
-/

namespace SerialChrono

open CText CycleRotation

/-! ## Options -/

inductive HasArg
  | noArgument
  | requiredArgument
  | optionalArgument
  deriving DecidableEq, Repr

/-- `struct option` -/
structure LongOption where
  name : CString
  hasArg : HasArg
  val : Char
  deriving DecidableEq, Repr

/-- What stands behind a letter in the string of the options. -/
def argKind (options : CString) (c : Char) : Option HasArg :=
  if c = ':' then none
  else
    match options.dropWhile (· ≠ c) with
    | [] => none
    | _ :: ':' :: ':' :: _ => some .optionalArgument
    | _ :: ':' :: _ => some .requiredArgument
    | _ :: _ => some .noArgument

/-- The loop over the long options: the one that matches, and whether there are several. -/
def matchLongLoop (name : CString) :
    List LongOption → (found : Option LongOption) → (ambiguous : Bool) → Option LongOption × Bool
  | [], found, ambiguous => (found, ambiguous)
  | o :: longOptions, found, ambiguous =>
    if !name.isPrefixOf o.name then matchLongLoop name longOptions found ambiguous
    else if o.name.length = name.length then (some o, false)
    else
      match found with
      | none => matchLongLoop name longOptions (some o) ambiguous
      | some o' =>
        matchLongLoop name longOptions found (ambiguous || !(o.hasArg = o'.hasArg ∧ o.val = o'.val))

/-- The long option a name stands for, unless it is ambiguous. -/
def findLong (longOptions : List LongOption) (name : CString) : Option LongOption :=
  match matchLongLoop name longOptions none false with
  | (_, true) => none
  | (found, false) => found

/-! ## The exchange of two blocks -/

/-- `gcd` -/
def gcd (a b : ℕ) (hb : 0 < b) : ℕ :=
  have _hlt := Nat.mod_lt a hb
  if h : a % b = 0 then b else gcd b (a % b) (Nat.pos_of_ne_zero h)
termination_by b

/-- `permute_args` -/
def permuteArgs (nonoptStart nonoptEnd optEnd : ℕ) (nargv : List CString) :
    Option (List CString) :=
  let nnonopts := nonoptEnd - nonoptStart
  let nopts := optEnd - nonoptEnd
  if h : 0 < nopts then
    let ncycle := gcd nnonopts nopts h
    let cyclelen := (optEnd - nonoptStart) / ncycle
    let next pos := if nonoptEnd ≤ pos then pos - nnonopts else pos + nopts
    some ((List.range ncycle).foldl
      (fun nargv i =>
        ((fun s => (next s.1, exchange s.2 (next s.1) (nonoptEnd + i)))^[cyclelen]
          (nonoptEnd + i, nargv)).2)
      nargv)
  else none

/-! ## The state -/

/-- The static variables of `getopt.c`, and the argument vector. -/
structure Getopt where
  argv : List CString
  optind : ℕ
  optarg : Option CString
  /-- The rest of the argument the letters are taken from, empty for `EMSG`. -/
  place : CString
  /-- The first of the arguments that have been skipped. -/
  nonoptStart : Option ℕ
  /-- The first option behind them. -/
  nonoptEnd : Option ℕ
  deriving DecidableEq, Repr

def Getopt.start (argv : List CString) : Getopt := ⟨argv, 1, none, [], none, none⟩

/-- The end of the options: the arguments that have been skipped come behind them. -/
def Getopt.finish (s : Getopt) : Option Getopt :=
  match s.nonoptStart, s.nonoptEnd with
  | some start, some end_ =>
    (permuteArgs start end_ s.optind s.argv).map fun argv =>
      { s with
        argv, optind := s.optind - (end_ - start), place := [], nonoptStart := none
        nonoptEnd := none }
  | some start, none =>
    some { s with optind := start, place := [], nonoptStart := none, nonoptEnd := none }
  | none, _ => some { s with place := [], nonoptStart := none, nonoptEnd := none }

/-- The argument at `optind` is no option. -/
def Getopt.skip (s : Getopt) : Option Getopt :=
  match s.nonoptStart, s.nonoptEnd with
  | none, _ =>
    some { s with optind := s.optind + 1, place := [], nonoptStart := some s.optind }
  | some start, some end_ =>
    (permuteArgs start end_ s.optind s.argv).map fun argv =>
      { s with
        argv, optind := s.optind + 1, place := []
        nonoptStart := some (s.optind - (end_ - start)), nonoptEnd := none }
  | some _, none => some { s with optind := s.optind + 1, place := [] }

/-- The argument at `optind` is an option, and the first behind the ones that have been skipped. -/
def Getopt.markOption (s : Getopt) : Getopt :=
  if s.nonoptStart ≠ none ∧ s.nonoptEnd = none then { s with nonoptEnd := some s.optind } else s

/-- `--` has been read. -/
def Getopt.endOfOptions (s : Getopt) : Option Getopt :=
  match s.nonoptStart, s.nonoptEnd with
  | some _, some _ => s.finish
  | _, _ => some { s with place := [], nonoptStart := none, nonoptEnd := none }

/-- The loop from `start`, with a bound on its turns: whether it has found an option. -/
def Getopt.search : (fuel : ℕ) → Getopt → Option (Bool × Getopt)
  | 0, _ => none
  | fuel + 1, s =>
    match s.argv[s.optind]? with
    | none => s.finish.map (false, ·)
    | some ['-', '-'] =>
      { s.markOption with optind := s.optind + 1 }.endOfOptions.map (false, ·)
    | some ('-' :: c :: rest) => some (true, { s.markOption with place := c :: rest })
    | some _ => s.skip.bind (search fuel)

/-! ## The options one by one -/

/-- What `getopt` returns for an option it does not know, and for one whose argument is missing. -/
def badch : Char := '?'

section

variable (options : CString) (longOptions : List LongOption)

/-- The name of a long option, and what stands behind its equals sign. -/
def splitLong (current : CString) : CString × Option CString :=
  match cutAt '=' current with
  | some (name, value) => (name, some value)
  | none => (current, none)

/-- `parse_long_options`, for an argument that begins with two hyphens. -/
def parseLongOptions (s : Getopt) (current : CString) : Char × Getopt :=
  let s := { s with optind := s.optind + 1 }
  let (name, hasEqual) := splitLong current
  match findLong longOptions name with
  | none => (badch, s)
  | some o =>
    match o.hasArg, hasEqual with
    | .noArgument, some _ => (badch, s)
    | .noArgument, none => (o.val, s)
    | _, some value => (o.val, { s with optarg := some value })
    | .requiredArgument, none =>
      match s.argv[s.optind]? with
      | some value => (o.val, { s with optarg := some value, optind := s.optind + 1 })
      | none => (badch, s)
    | .optionalArgument, none => (o.val, s)

/-- The letter at `place`, which is not a hyphen. -/
def parseLetter (s : Getopt) (c : Char) (place : CString) : Char × Getopt :=
  let next := if place = [] then s.optind + 1 else s.optind
  match argKind options c with
  | none => (badch, { s with place, optind := next })
  | some .noArgument => (c, { s with place, optind := next })
  | some kind =>
    if place ≠ [] then (c, { s with optarg := some place, place := [], optind := s.optind + 1 })
    else if kind = .requiredArgument then
      match s.argv[s.optind + 1]? with
      | none => (badch, { s with place := [], optind := s.optind + 1 })
      | some value => (c, { s with optarg := some value, place := [], optind := s.optind + 2 })
    else (c, { s with place := [], optind := s.optind + 1 })

/-- An option has been found: the rest of its argument is at `place`. -/
def Getopt.parse (s : Getopt) : Char × Getopt :=
  match s.place with
  | '-' :: current =>
    let (c, s) := parseLongOptions longOptions s current
    (c, { s with place := [] })
  | c :: place => parseLetter options s c place
  | [] => (badch, s)

/-- What is returned after the search. -/
def Getopt.result : Bool × Getopt → Option Char × Getopt
  | (true, s) => Prod.map some id (s.parse options longOptions)
  | (false, s) => (none, s)

/-- `getopt_long`: the option, or nothing at the end of the options. -/
def getoptLong (s : Getopt) : Option (Option Char × Getopt) :=
  let s := { s with optarg := none }
  if s.place = [] then (s.search (s.argv.length + 1)).map (Getopt.result options longOptions)
  else some (Getopt.result options longOptions (true, s))

end

end SerialChrono
