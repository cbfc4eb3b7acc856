import IncrementalBuild.Machine.Shell.Program.Basic
import IncrementalBuild.Machine.Phrase

/-!
# Stamping files

`touch` stamps files with the time of the clock, or with a stated time, and makes those that
are not there.
-/

namespace IncrementalBuild.Shell.Program

/-- The time that digits stand for, two each for the month, the day, the hour and the
minute, after at most four for the year, and perhaps a point and two more for the second,
which may be the sixtieth. -/
def momentStated? (now : Stamp) (text : String) : Option Stamp :=
  let cs := text.toList
  let digits := cs.takeWhile (· ≠ '.')
  let second := (cs.dropWhile (· ≠ '.')).drop 1
  let isNumeral := digits.all Decimal.isDigit && second.all Decimal.isDigit
    && (second.length = 2 || !cs.contains '.')
  let pairs := digits.drop (digits.length - 8)
  let pair (index : Nat) : Int := Decimal.value ((pairs.drop (2 * index)).take 2)
  let written : Int := Decimal.value (digits.take (digits.length - 8))
  let year? : Option Int :=
    match digits.length with
    | 8 => some (Date.ofSeconds now.secs).year
    | 10 => some (if written ≤ 68 then 2000 + written else 1900 + written)
    | 12 => some written
    | _ => none
  match year? with
  | none => none
  | some year =>
    let date : Date := ⟨year, pair 0, pair 1⟩
    let isLeap : Bool := Decimal.value second = 60
    let clock : Clock := ⟨pair 2, pair 3, if isLeap then 59 else Decimal.value second⟩
    let secs := secondsOf date clock
    if isNumeral && Date.ofSeconds secs = date && Clock.ofSeconds secs = clock then
      Stamp.ofParts? (if isLeap then secs + 1 else secs) 0
    else
      none

/-! ### Stamping files -/

/-- What `touch` is to do: the time, whether it becomes the time of modification, whether
files that are not there are made, and whether links are followed. -/
structure Stamping where
  time : Stamp
  modifies : Bool
  creates : Bool
  follows : Bool

/-- Stamps what a path leads to. -/
def Stamping.apply (stamping : Stamping) (name : String) (sh : Shell) :
    Except SystemError Unit × FileTree :=
  let tree := sh.machine.tree
  match tree.resolve stamping.follows sh.here name with
  | .error e => (.error e, tree)
  | .ok (_, none) => (.error .notFound, tree)
  | .ok (place, some entry) =>
    match sh.behind entry with
    | .error e => (.error e, tree)
    | .ok (.file number) =>
      (.ok (), if stamping.modifies then tree.stampFile number stamping.time else tree)
    | .ok _ => (.ok (), if stamping.modifies then tree.stampAt place stamping.time else tree)

/-- Stamps what the output leads to. -/
def Stamping.applyToOutput (stamping : Stamping) (sh : Shell) :
    Except SystemError Unit × FileTree :=
  let tree := sh.machine.tree
  match (sh.openFile? 1).map OpenFile.channel with
  | none => (.error .badDescriptor, tree)
  | some (.file number) =>
    (.ok (), if stamping.modifies then tree.stampFile number stamping.time else tree)
  | some _ => (.ok (), tree)

/-- Stamps a file, which is made first if it is not there.  The name `-` stands for the
output. -/
def Stamping.touch (stamping : Stamping) (name : String) (sh : Shell) : Bool × Shell :=
  let setting := "setting times of " ++ shown name
  if name = "-" then
    report setting (stamping.applyToOutput sh) sh
  else if stamping.creates && stamping.follows then
    match sh.machine.tree.openFile sh.here name with
    | (.error .isADirectory, _) => report setting (stamping.apply name sh) sh
    | (.error e, tree) => report ("cannot touch " ++ shown name) (.error e, tree) sh
    | (.ok entry, tree) =>
      match sh.behind entry with
      | .error e => report ("cannot touch " ++ shown name) (.error e, tree) sh
      | .ok _ => report setting (stamping.apply name (sh.withTree tree)) sh
  else
    match stamping.apply name sh with
    | (.error .notFound, _) =>
      if stamping.creates then report setting (.error .notFound, sh.machine.tree) sh
      else (true, sh)
    | change => report setting change sh

/-! ### Options -/

/-- Refuses digits that are no moment.  The moment is not looked at before the end. -/
def checkMoment : List Given → (written : String) → Option String → Except Fault (Option String)
  | _, _, text =>
    if (momentStated? .epoch (text.getD "")).isSome then .ok text
    else .error (.refusal ("invalid date format " ++ shownAsText (text.getD "")))

/-- The options of `touch`. -/
def touchSwitches : List Switch :=
  [(Switch.long "time" .required).choosing [["atime", "access", "use"], ["mtime", "modify"]],
    .plain 'c' ["no-create"], .of "d" ['d'] ["date"] .required,
    .of "r" ['r'] ["reference"] .required, .plain 'h' ["no-dereference"], .plain 'a' [],
    .plain 'f' [], .plain 'm' [], { Switch.of "t" ['t'] [] .required with check := checkMoment }]

/-- Whether the time of modification is changed: it is if no other time is named alone. -/
def modifiesTime (call : Invocation) : Bool :=
  let names (key word : String) : Bool := call.has key || call.given.contains ("time", some word)
  names "m" "mtime" || !names "a" "atime"

/-- The time that options state, or that of the clock; else what is wrong with them. -/
def timeOf (call : Invocation) (sh : Shell) : Except Fault Stamp := do
  let tree := sh.machine.tree
  let base ←
    match call.last? "r" with
    | none => .ok tree.now
    | some name =>
      match tree.resolve (!call.has "h") sh.here name with
      | .ok (_, some entry) => .ok (tree.modifiedOf entry)
      | found =>
        let e : SystemError :=
          match found with
          | .error e => e
          | .ok _ => .notFound
        .error (.refusal ("failed to get attributes of " ++ shown name ++ ": " ++ e.reason))
  match call.last? "t", call.last? "d" with
  | some text, none => return (momentStated? tree.now text).getD base
  | _, some text =>
    match Phrase.read base text with
    | none => .error (.refusal ("invalid date format " ++ shownAsText text))
    | some time => return time
  | none, none => return base

/-- Stamps files with the time of the clock, or with a stated one. -/
def touch : Program := withSwitches touchSwitches noWarnings fun call sh =>
  if call.has "t" && (call.has "d" || call.has "r") then
    misused "cannot specify times from more than one source" sh
  else
    match timeOf call sh with
    | .error fault => faulted fault sh
    | .ok time =>
      if call.operands.isEmpty then
        misused "missing file operand" sh
      else
        forEach call.operands
          (Stamping.touch ⟨time, modifiesTime call, !call.has "c", !call.has "h"⟩) sh

end IncrementalBuild.Shell.Program
