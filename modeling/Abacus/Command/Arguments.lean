/-
  Abacus/Command/Arguments.lean
  =============================
  **Arguments of a command line.**  An argument that starts with a dash, and is more than
  that, is an option.  Long options are spelled out; one that takes a value finds it
  behind an equals sign or in the next argument, whatever that looks like.  Short options
  are flags and may be joined behind one dash.  A double dash ends the options.
-/
namespace Abacus.Command

/-- The options that are understood. -/
structure Grammar where
  /-- The long options, with whether they take a value. -/
  long : List (String × Bool)
  /-- The short options and the long ones they stand for. -/
  short : List (Char × String)
  /-- Whether options may follow other arguments. -/
  mixed : Bool
deriving DecidableEq, Repr

/-- An option that was given, and its value if it takes one. -/
structure Given where
  name : String
  value : Option String
deriving DecidableEq, Repr

/-- The options and the other arguments of a command line, in order. -/
structure Arguments where
  options : List Given
  others : List String
deriving DecidableEq, Repr

namespace Arguments

/-- Puts options before those of the arguments that follow. -/
def withOptions (given : List Given) (args : Arguments) : Arguments :=
  { args with options := given ++ args.options }

/-- The value of the last option of a name that takes one. -/
def value? (args : Arguments) (name : String) : Option String :=
  (args.options.reverse.find? fun given => given.name = name).bind Given.value

/-- The first option given among some names. -/
def first? (args : Arguments) (names : List String) : Option String :=
  (args.options.find? fun given => given.name ∈ names).map Given.name

/-- The last option given among some names. -/
def last? (args : Arguments) (names : List String) : Option String :=
  (args.options.reverse.find? fun given => given.name ∈ names).map Given.name

end Arguments

/-- Cuts an argument at its first equals sign. -/
def splitValue (arg : String) : String × Option String :=
  let cs := arg.toList
  let name := cs.takeWhile (· ≠ '=')
  match cs.drop name.length with
  | [] => (arg, none)
  | _ :: value => (String.ofList name, some (String.ofList value))

/-- The flags joined behind one dash, if all are understood. -/
def shortFlags? (grammar : Grammar) (cs : List Char) : Option (List Given) :=
  cs.mapM fun c => (grammar.short.lookup c).map fun name => ⟨name, none⟩

/-- Whether an argument is an option. -/
def isOption (arg : String) : Bool :=
  match arg.toList with
  | '-' :: _ :: _ => true
  | _ => false

/-- Sorts arguments into options and others.  Nothing if an option is not understood, lacks
    its value or has one it does not take. -/
def readArguments? (grammar : Grammar) : List String → Option Arguments
  | [] => some ⟨[], []⟩
  | arg :: rest =>
    if arg = "--" then some ⟨[], rest⟩
    else if isOption arg then
      let (name, attached) := splitValue arg
      match grammar.long.lookup name, attached with
      | some true, some value => (readArguments? grammar rest).map (.withOptions [⟨name, some value⟩])
      | some true, none =>
        match rest with
        | [] => none
        | value :: rest => (readArguments? grammar rest).map (.withOptions [⟨name, some value⟩])
      | some false, some _ => none
      | some false, none => (readArguments? grammar rest).map (.withOptions [⟨name, none⟩])
      | none, _ =>
        if arg.toList.take 2 = ['-', '-'] then none
        else match shortFlags? grammar (arg.toList.drop 1) with
          | none => none
          | some flags => (readArguments? grammar rest).map (.withOptions flags)
    else if grammar.mixed then
      (readArguments? grammar rest).map fun args => { args with others := arg :: args.others }
    else some ⟨[], arg :: rest⟩

end Abacus.Command
