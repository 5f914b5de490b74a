import Mathlib.Algebra.Group.Nat.Defs

/-!
# Lines of standard input

`read_line` of `stdin.rs`. The input is what `fill_buf` will return: the first entry may be the rest of a
chunk whose beginning was consumed, and after the last entry the input has ended. Decoding is a parameter.
-/

namespace RocNet.Stdin

/-- `MAX_LINE`. -/
def maxLine : ℕ := 1048576

/-- What a call of `fill_buf` returns before the end: a chunk is not empty. -/
inductive Fill
  | interrupted
  | chunk (first : UInt8) (others : List UInt8)
  deriving DecidableEq, Repr

/-- `Line`, with the texts that bytes decode to. -/
inductive Line (τ : Type)
  | text (t : τ)
  | tooLong
  | ended
  | failed
  deriving DecidableEq, Repr

/-- A part of a line is kept, or makes it too long. -/
def keep (line : List UInt8) (tooLong : Bool) (part : List UInt8) : List UInt8 × Bool :=
  if tooLong then (line, true)
  else if maxLine + 1 < line.length + part.length then ([], true)
  else (line ++ part, false)

/-- How the loop of `read_line` ends: what it kept of the line unless there was none, what is left of the input and,
as history, how many bytes it held after each chunk. -/
structure Read where
  line : Option (List UInt8 × Bool)
  rest : List Fill
  held : List ℕ

def readLoop (line : List UInt8) (tooLong : Bool) : List Fill → Read
  | [] => ⟨if line.isEmpty && !tooLong then none else some (line, tooLong), [], []⟩
  | .interrupted :: rest => readLoop line tooLong rest
  | .chunk first others :: rest =>
    let kept := keep line tooLong ((first :: others).takeWhile (· != 10))
    match (first :: others).dropWhile (· != 10) with
    | [] =>
      let r := readLoop kept.1 kept.2 rest
      { r with held := kept.1.length :: r.held }
    | [_] => ⟨some kept, rest, [kept.1.length]⟩
    | _ :: next :: after => ⟨some kept, .chunk next after :: rest, [kept.1.length]⟩

variable {τ : Type} (decode : List UInt8 → Option τ)

/-- What `read_line` makes of a line. -/
def finish (line : List UInt8) (tooLong : Bool) : Line τ :=
  let line := if line.getLast? = some 13 then line.dropLast else line
  if tooLong || maxLine < line.length then .tooLong else (decode line).elim .failed .text

/-- `read_line` (stdin.rs:93-139), with what is left of the input. -/
def readLine (input : List Fill) : Line τ × List Fill :=
  let r := readLoop [] false input
  match r.line with
  | none => (.ended, r.rest)
  | some (line, tooLong) => (finish decode line tooLong, r.rest)

/-- What a call of `read_line` returns after so many others. -/
def lineAt : ℕ → List Fill → Line τ
  | 0, input => (readLine decode input).1
  | i + 1, input => lineAt i (readLine decode input).2

end RocNet.Stdin
