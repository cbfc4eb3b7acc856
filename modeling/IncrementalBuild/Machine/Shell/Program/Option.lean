import IncrementalBuild.Machine.Shell.Program.Quotation

/-!
# The options of programs

The arguments of a program are options and operands, in any order.  An argument `-abc` is a
cluster of letters, and one `--name` or `--name=value` a long name, which can be cut short
as long as it stays unambiguous.  An option that requires an argument takes the rest of the
cluster or else the next argument.  After `--` there are only operands, and `-` is one.

An option can be checked, with its argument, at the point where it is read.
`Invocation.read` reads arguments up to the first fault.
-/

namespace IncrementalBuild.Shell.Program

/-- Something wrong with the arguments of a program: a letter that is no option, known by its
first byte, a wrong use, or something else that is refused. -/
inductive Fault
  | unknownLetter (byte : UInt8)
  | misuse (text : String)
  | refusal (text : String)
deriving DecidableEq, Repr

/-- What is wrong. -/
def Fault.message : Fault → ByteArray
  | unknownLetter byte => "invalid option -- '".toUTF8 ++ ⟨#[byte, 39]⟩
  | misuse text | refusal text => text.toUTF8

/-- Whether an option takes an argument. -/
inductive Arity
  | none
  | required
  | optional
deriving DecidableEq, Repr

/-- An option that has been given: its key, and its argument. -/
abbrev Given : Type :=
  String × Option String

/-- An option: its letters, its long names, and whether it takes an argument.  It is checked
after what has been given before it, as it is written, with its argument, which the check
may put into its full form. -/
structure Switch where
  key : String
  letters : List Char
  names : List String
  arity : Arity
  check : List Given → (written : String) → Option String → Except Fault (Option String)

/-- An option whose argument is taken as it is. -/
def Switch.of (key : String) (letters : List Char) (names : List String) (arity : Arity) :
    Switch :=
  ⟨key, letters, names, arity, fun _ _ argument => .ok argument⟩

/-- An option of one letter, and perhaps a long name, that takes no argument. -/
def Switch.plain (letter : Char) (names : List String) : Switch :=
  .of (String.ofList [letter]) [letter] names .none

/-- An option with a long name only. -/
def Switch.long (name : String) (arity : Arity) : Switch :=
  .of name [] [name] arity

/-- The one of several choices that a word, perhaps cut short, stands for; else what is wrong
with it as the argument of what is `about` to be chosen.  A choice has several names, and is
known by the first of them. -/
def choice (about : String) (choices : List (List String)) (word : String) :
    Except Fault String :=
  let fault (what : String) : Except Fault String :=
    .error (.misuse (what ++ " argument " ++ shownAsText word ++ " for '" ++ about
      ++ "'\nValid arguments are:"
      ++ String.join (choices.map fun names =>
        "\n  - " ++ ", ".intercalate (names.map fun name => "'" ++ name ++ "'"))))
  match choices.find? (·.contains word) with
  | some names => .ok (names.headD "")
  | none =>
    match choices.filter fun names => names.any (·.startsWith word) with
    | [] => fault "invalid"
    | [names] => .ok (names.headD "")
    | _ => fault "ambiguous"

/-- An option whose argument is one of several choices. -/
def Switch.choosing (switch : Switch) (choices : List (List String)) : Switch :=
  { switch with
    check := fun _ _ argument =>
      match argument with
      | none => .ok none
      | some word => (choice ("--" ++ switch.names.headD "") choices word).map some }

/-- The options that have been given, and the operands. -/
structure Invocation where
  given : List Given
  operands : List String
deriving DecidableEq, Repr

namespace Invocation

/-- Whether an option has been given. -/
def has (call : Invocation) (key : String) : Bool :=
  call.given.any fun option => option.1 = key

/-- The argument of an option where it has been given last. -/
def last? (call : Invocation) (key : String) : Option String :=
  (call.given.reverse.find? fun option => option.1 = key).bind (·.2)

/-- The one of several options that has been given last. -/
def latest? (call : Invocation) (keys : List String) : Option Given :=
  call.given.reverse.find? fun option => keys.contains option.1

/-- The call with another option, as it is written, with its argument. -/
def add (call : Invocation) (switch : Switch) (written : String) (argument : Option String) :
    Except Fault Invocation :=
  (switch.check call.given written argument).map fun argument =>
    { call with given := call.given ++ [(switch.key, argument)] }

/-- The call with another operand. -/
def addOperand (call : Invocation) (operand : String) : Invocation :=
  { call with operands := call.operands ++ [operand] }

end Invocation

/-- The option that the long name of an argument, perhaps cut short, stands for. -/
def findLong (switches : List Switch) (argument name : String) :
    Except Fault (String × Switch) :=
  let named := switches.flatMap fun switch => switch.names.map fun full => (full, switch)
  match named.find? fun candidate => candidate.1 = name with
  | some found => .ok found
  | none =>
    match named.filter fun candidate => candidate.1.startsWith name with
    | [] => .error (.misuse ("unrecognized option '" ++ argument ++ "'"))
    | found :: others =>
      match others.filter fun other => other.2.key ≠ found.2.key with
      | [] => .ok found
      | others =>
        .error (.misuse ("option '" ++ argument ++ "' is ambiguous; possibilities:"
          ++ String.join ((found :: others).map fun candidate => " '--" ++ candidate.1 ++ "'")))

/-- A call with the options that a cluster of letters states, and the last of them if it still
awaits its argument. -/
def readLetters (switches : List Switch) :
    List Char → Invocation → Except (Fault × Invocation) (Invocation × Option Switch)
  | [], call => .ok (call, none)
  | letter :: rest, call =>
    match switches.find? fun switch => switch.letters.contains letter with
    | none => .error (.unknownLetter (((String.ofList [letter]).toUTF8.toList.head?).getD 0), call)
    | some switch =>
      let written := String.ofList ['-', letter]
      let add (argument : Option String) : Except (Fault × Invocation) Invocation :=
        (call.add switch written argument).mapError (·, call)
      if switch.arity = .required then
        if rest.isEmpty then .ok (call, some switch)
        else (add (some (String.ofList rest))).map (·, none)
      else
        match add none with
        | .error fault => .error fault
        | .ok call => readLetters switches rest call

/-- Reads arguments after those of a call; on a fault, what has been read before it. -/
def Invocation.read (switches : List Switch) :
    Invocation → List String → Invocation × Option Fault
  | call, [] => (call, none)
  | call, argument :: rest =>
    match argument.toList with
    | ['-', '-'] => ({ call with operands := call.operands ++ rest }, none)
    | '-' :: '-' :: cs =>
      let name := String.ofList (cs.takeWhile (· ≠ '='))
      let value :=
        match cs.dropWhile (· ≠ '=') with
        | [] => none
        | _ :: value => some (String.ofList value)
      match findLong switches argument name with
      | .error fault => (call, some fault)
      | .ok (full, switch) =>
        match switch.arity, value, rest with
        | .none, some _, _ =>
          (call, some (.misuse ("option '--" ++ full ++ "' doesn't allow an argument")))
        | .required, none, [] =>
          (call, some (.misuse ("option '--" ++ full ++ "' requires an argument")))
        | .required, none, next :: rest =>
          match call.add switch argument (some next) with
          | .error fault => (call, some fault)
          | .ok call => Invocation.read switches call rest
        | _, value, rest =>
          match call.add switch argument value with
          | .error fault => (call, some fault)
          | .ok call => Invocation.read switches call rest
    | '-' :: c :: cs =>
      match readLetters switches (c :: cs) call with
      | .error (fault, call) => (call, some fault)
      | .ok (call, none) => Invocation.read switches call rest
      | .ok (call, some switch) =>
        let letter := String.ofList ((c :: cs).getLast?.toList)
        match rest with
        | [] => (call, some (.misuse ("option requires an argument -- '" ++ letter ++ "'")))
        | next :: rest =>
          match call.add switch ("-" ++ letter) (some next) with
          | .error fault => (call, some fault)
          | .ok call => Invocation.read switches call rest
    | _ => Invocation.read switches (call.addOperand argument) rest

end IncrementalBuild.Shell.Program
