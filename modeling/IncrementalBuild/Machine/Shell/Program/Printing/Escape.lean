import IncrementalBuild.Machine.Shell.Program.Numeral

/-!
# Escape sequences

An escape sequence begins with a backslash and stands for a byte.  The programs of the shell
know fewer of them than the programs of files, `echo` and `printf`, each of which has rules of
its own (`readSequence`, `readEchoed`).
-/

namespace IncrementalBuild.Shell.Program

/-- The byte that a letter after a backslash stands for. -/
def simpleEscape? : Char → Option UInt8
  | 'a' => some 7
  | 'b' => some 8
  | 'e' => some 27
  | 'f' => some 12
  | 'n' => some 10
  | 'r' => some 13
  | 't' => some 9
  | 'v' => some 11
  | '\\' => some 92
  | _ => none

/-- The bytes of a text. -/
def bytesIn (cs : List Char) : List UInt8 :=
  (String.ofList cs).toUTF8.toList

/-- The byte that the text after a backslash begins with, and the text after it; a
backslash before anything else stands for itself. -/
def readEscape : List Char → UInt8 × List Char
  | [] => (92, [])
  | c :: cs =>
    match simpleEscape? c with
    | some b => (b, cs)
    | none =>
      let digits := ((c :: cs).take 3).takeWhile isOctal
      if digits.isEmpty then (92, c :: cs)
      else ((digitsValue 8 digits).toUInt8, (c :: cs).drop digits.length)

/-- The bytes of an argument in which escape sequences are replaced; the flag says whether
the text was cut short by the sequence that ends all output. -/
def unescape : (fuel : Nat) → List Char → List UInt8 × Bool
  | 0, _ | _, [] => ([], false)
  | _ + 1, '\\' :: 'c' :: _ => ([], true)
  | fuel + 1, '\\' :: cs =>
    let digits :=
      match cs with
      | '0' :: c :: rest => if isOctal c then c :: rest else cs
      | cs => cs
    let (b, rest) := readEscape digits
    let (bytes, cut) := unescape fuel rest
    (b :: bytes, cut)
  | fuel + 1, c :: cs =>
    let (bytes, cut) := unescape fuel cs
    (bytesIn [c] ++ bytes, cut)

/-! ### Sequences in programs of files -/

/-- The end of all output: it has been asked for, or something is wrong. -/
inductive Ending
  | cut
  | fault (message : ByteArray)

/-- The digits in a base, at most so many, that a text begins with, and the text after them. -/
def takeDigitsUpTo (base count : Nat) (cs : List Char) : List Char × List Char :=
  let digits := (takeDigits base (cs.take count)).1
  (digits, cs.drop digits.length)

/-- Digits of base sixteen with zeros in front, up to a number of them. -/
def hexDigits (count n : Nat) : List Char :=
  let digits := Nat.toDigits 16 n
  List.replicate (count - digits.length) '0' ++ digits

/-- What is wrong with a sequence that lacks digits. -/
def lackOfDigits : Ending :=
  .fault "missing hexadecimal number in escape".toUTF8

/-- The bytes for a character that is given by its number, with so many digits after a letter.
A character of ASCII cannot be given in this way, apart from the few that not every alphabet
has, and one beyond ASCII is written as a sequence. -/
def characterBytes (letter : Char) (count n : Nat) : Except Ending (List UInt8) :=
  let isForeign := n = 0x24 || n = 0x40 || n = 0x60
  if (n ≤ 0x9f && !isForeign) || (0xd800 ≤ n && n ≤ 0xdfff) then
    .error (.fault ("invalid universal character name \\".toUTF8
      ++ (String.ofList (letter :: hexDigits count n)).toUTF8))
  else if isForeign then
    .ok [n.toUInt8]
  else
    let digits := hexDigits (if n < 0x10000 then 4 else 8) n
    .ok (bytesIn ('\\' :: (if n < 0x10000 then 'u' else 'U') :: digits.map Char.toUpper))

/-- The bytes for what comes after a backslash, and the text after that.  A zero can come before
three octal digits if that is `zeroFirst`. -/
def readSequence (zeroFirst : Bool) (cs : List Char) : Except Ending (List UInt8 × List Char) :=
  match cs with
  | [] => .ok ([92], [])
  | 'x' :: rest =>
    match takeDigitsUpTo 16 2 rest with
    | ([], _) => .error lackOfDigits
    | (digits, rest) => .ok ([(digitsValue 16 digits).toUInt8], rest)
  | 'c' :: _ => .error .cut
  | '"' :: rest => .ok ([34], rest)
  | c :: rest =>
    if isOctal c then
      let (digits, rest) := takeDigitsUpTo 8 3 (if zeroFirst && c = '0' then rest else cs)
      .ok ([(digitsValue 8 digits).toUInt8], rest)
    else if c = 'u' || c = 'U' then
      let count := if c = 'u' then 4 else 8
      match takeDigitsUpTo 16 count rest with
      | (digits, rest) =>
        if digits.length < count then .error lackOfDigits
        else (characterBytes c count (digitsValue 16 digits)).map (·, rest)
    else
      match simpleEscape? c with
      | some b => .ok ([b], rest)
      | none => .ok (bytesIn ['\\', c], rest)

/-- The bytes of a text in which sequences are replaced, up to an end of all output. -/
def replaceSequences : (fuel : Nat) → List Char → List UInt8 × Option Ending
  | 0, _ | _, [] => ([], none)
  | fuel + 1, '\\' :: cs =>
    match readSequence true cs with
    | .error ending => ([], some ending)
    | .ok (bytes, rest) =>
      let (after, ending) := replaceSequences fuel rest
      (bytes ++ after, ending)
  | fuel + 1, c :: cs =>
    let (after, ending) := replaceSequences fuel cs
    (bytesIn [c] ++ after, ending)

/-- The bytes of an argument of `echo` in which sequences are replaced; the flag says whether
the text was cut short. -/
def readEchoed : (fuel : Nat) → List Char → List UInt8 × Bool
  | 0, _ | _, [] => ([], false)
  | _ + 1, '\\' :: 'c' :: _ => ([], true)
  | fuel + 1, '\\' :: c :: cs =>
    let (bytes, rest) :=
      match c, takeDigitsUpTo 16 2 cs with
      | 'x', (digit :: digits, rest) => ([(digitsValue 16 (digit :: digits)).toUInt8], rest)
      | c, _ =>
        if isOctal c then
          let (digits, rest) := takeDigitsUpTo 8 3 (if c = '0' then cs else c :: cs)
          ([(digitsValue 8 digits).toUInt8], rest)
        else
          match simpleEscape? c with
          | some b => ([b], cs)
          | none => (bytesIn ['\\', c], cs)
    let (after, cut) := readEchoed fuel rest
    (bytes ++ after, cut)
  | fuel + 1, c :: cs =>
    let (after, cut) := readEchoed fuel cs
    (bytesIn [c] ++ after, cut)

end IncrementalBuild.Shell.Program
