import IncrementalBuild.Text.Decimal

/-!
# System errors

The reasons for which a request to the operating system, or to a writer, can fail, with
the message of each.  `isAbsence` singles out the two that say no more than that there is
no such file.
-/

namespace IncrementalBuild

/-- The reason for which a request failed. -/
inductive SystemError
  | notFound
  | argumentsTooLong
  | badDescriptor
  | permissionDenied
  | fileExists
  | notADirectory
  | isADirectory
  | invalidArgument
  | noSpace
  | nameTooLong
  | directoryNotEmpty
  | tooManyLinks
  | notSupported
  | invalidText
  | nulInName
  | nulInCommand
  | pipeClosed
  | flushRefused
  | other (message : String)
deriving DecidableEq, Repr

namespace SystemError

/-- What is wrong, in words, without the number of the error. -/
def reason : SystemError → String
  | notFound => "No such file or directory"
  | argumentsTooLong => "Argument list too long"
  | badDescriptor => "Bad file descriptor"
  | permissionDenied => "Permission denied"
  | fileExists => "File exists"
  | notADirectory => "Not a directory"
  | isADirectory => "Is a directory"
  | invalidArgument => "Invalid argument"
  | noSpace => "No space left on device"
  | nameTooLong => "File name too long"
  | directoryNotEmpty => "Directory not empty"
  | tooManyLinks => "Too many levels of symbolic links"
  | notSupported => "Operation not supported"
  | invalidText => "stream did not contain valid UTF-8"
  | nulInName => "file name contained an unexpected NUL byte"
  | nulInCommand => "nul byte found in provided data"
  | pipeClosed => "pipe closed"
  | flushRefused => "flush refused"
  | other message => message

/-- The number the operating system gives to the error. -/
def number? : SystemError → Option Nat
  | notFound => some 2
  | argumentsTooLong => some 7
  | badDescriptor => some 9
  | permissionDenied => some 13
  | fileExists => some 17
  | notADirectory => some 20
  | isADirectory => some 21
  | invalidArgument => some 22
  | noSpace => some 28
  | nameTooLong => some 36
  | directoryNotEmpty => some 39
  | tooManyLinks => some 40
  | notSupported => some 95
  | invalidText | nulInName | nulInCommand | pipeClosed | flushRefused | other _ => none

/-- What is wrong, in words. -/
def message (e : SystemError) : String :=
  match e.number? with
  | none => e.reason
  | some number => e.reason ++ " (os error " ++ Decimal.ofNat number ++ ")"

/-- There is no file of the name: nothing has it, or a file stands where a directory would
have to. -/
def isAbsence : SystemError → Bool
  | notFound | notADirectory => true
  | _ => false

end SystemError

end IncrementalBuild
