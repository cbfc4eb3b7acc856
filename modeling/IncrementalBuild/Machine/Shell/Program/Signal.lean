import IncrementalBuild.Text.Decimal

/-!
# Signals

The signals that can be sent to a program, by their numbers.  Most of them end it.
-/

namespace IncrementalBuild.Shell

/-- The signals that have a name of their own: the one of number 1 first. -/
def signalNames : List String :=
  ["HUP", "INT", "QUIT", "ILL", "TRAP", "ABRT", "BUS", "FPE", "KILL", "USR1", "SEGV", "USR2",
    "PIPE", "ALRM", "TERM", "16", "CHLD", "CONT", "STOP", "TSTP", "TTIN", "TTOU", "URG", "XCPU",
    "XFSZ", "VTALRM", "PROF", "WINCH", "IO", "PWR", "SYS", "32", "33", "RTMIN"]

/-- The largest number of a signal. -/
def lastSignal : Nat := 64

/-- The name of a signal; those from the middle on are named after the first or the last of
them. -/
def signalName (number : Nat) : String :=
  if number = 0 then "0"
  else if number ≤ signalNames.length then signalNames.getD (number - 1) ""
  else if number < 50 then "RTMIN+" ++ Decimal.ofNat (number - 34)
  else if number < lastSignal then "RTMAX-" ++ Decimal.ofNat (lastSignal - number)
  else "RTMAX"

/-- The number of the signal that a text names, in letters of either case, or by a
number. -/
def signal? (text : String) : Option Nat :=
  let cs := text.toList
  match Decimal.toNat? cs with
  | some number => if number ≤ lastSignal then some number else none
  | none =>
    (List.range (lastSignal + 1)).find? fun number =>
      number ≠ 0 && signalName number = String.ofList (cs.map Char.toUpper)

/-- Whether a signal ends a program that gets it.  Some are ignored, and some only stop it for
a while. -/
def endsProgram (signal : Nat) : Bool :=
  [0, 17, 18, 19, 20, 21, 22, 23, 28].all (· ≠ signal)

end IncrementalBuild.Shell
